import Coffer.Proofs.RowByRow
import Coffer.Proofs.TableChange

namespace Coffer

/-! # Numbers of rows

The counter of a table only moves forward, and is past every number that was ever stored in its
counted column. So a number that an insertion takes from the counter was never in use before,
whatever has become of the rows in the meantime.
-/

open Coffer.Language (Resolution)

/-- What a tuple has in the counted column, if there is one. -/
def Table.countedValue? (table : Table) (tuple : Tuple) : Option Value :=
  table.countedPosition?.map fun position => tuple.getD position .null

/-- The number of a tuple: the integer in its counted column. -/
def Table.number? (table : Table) (tuple : Tuple) : Option Int64 :=
  match table.countedValue? tuple with
  | some (.integer number) => some number
  | _ => none

/-- What a relation has in the counted column. -/
def Relation.countedValues (relation : Relation) : List Value :=
  relation.tuples.filterMap relation.schema.countedValue?

/-- The integers in the counted column of a relation. -/
def Relation.numbers (relation : Relation) : List Int64 :=
  relation.tuples.filterMap relation.schema.number?

/-- The number of an inserted row, and whether it was taken from the counter. -/
structure RowNumber where
  number : Int64
  taken : Bool
  deriving DecidableEq

/-- The number that a row of values has, if it has one. -/
def Inserting.rowNumber? (columns : Option (List String)) (state : Inserting)
    (values : List Value) : Option RowNumber :=
  let table := state.staged.relation.schema
  match insertTargets table columns values.length with
  | .error _ => none
  | .ok targets =>
    let numbered :=
      numberTuple table.countedPosition? state.nextId (insertTuple table targets values)
    (table.number? numbered.1).map fun number => ⟨number, table.takesNumber columns values⟩

/-- The numbers of rows in order, up to the first row that fails. -/
def Inserting.rowNumbers (columns : Option (List String)) (resolution : Resolution)
    (state : Inserting) : List (List Value) → List RowNumber
  | [] => []
  | values :: rest =>
    (state.rowNumber? columns values).toList ++
      match insertValues columns resolution state values with
      | .ok next => next.rowNumbers columns resolution rest
      | .error _ => []

/-- The numbers of the rows that a statement inserts into a table, as far as it gets. -/
def Database.rowNumbers (database : Database) (table : String) (request : Request) :
    List RowNumber :=
  let store := database.state.store
  match (do
    let parsed ← Language.parse request.sql
    database.check parsed request
    match ← planStatement { store, parameters := request.parameters } parsed.statement with
    | .insert name columns resolution source =>
      if name ≠ table then return []
      let relation ← store.relation name
      let set ← source.run store
      return (Inserting.start relation).rowNumbers columns resolution set.rows
    | _ => return []) with
  | .ok numbers => numbers
  | .error _ => []

/-- Whether the counter is past all numbers, as far as there are numbers past them. -/
def Relation.Passed (relation : Relation) : Prop :=
  ∀ number ∈ relation.numbers, followingId number ≤ relation.nextId

/-- Whether the counter has not moved back, and is still past all numbers if it was before. -/
structure Relation.Advances (before after : Relation) : Prop where
  nextId : before.nextId ≤ after.nextId
  passed : before.Passed → after.Passed

/-! ## Counters -/

theorem lt_followingId {number : Int64} (room : number < Int64.maxValue) :
    number < followingId number := by
  have below : number.toInt < Nat.pow 2 63 - 1 := Int64.lt_iff_toInt_lt.mp room
  have above := number.le_toInt
  have next : (number + 1).toInt = number.toInt + 1 := by
    rw [Int64.toInt_add, Int64.toInt_one, Int.bmod_eq_of_le] <;> simp at * <;> omega
  rw [followingId, if_neg (by omega), Int64.lt_iff_toInt_lt]
  omega

theorem first_le_max (first second : Int64) : first ≤ max first second := by
  by_cases ordered : first ≤ second
  · rwa [show max first second = second from if_pos ordered]
  · rw [show max first second = first from if_neg ordered]
    exact Int64.le_refl first

theorem second_le_max (first second : Int64) : second ≤ max first second := by
  by_cases ordered : first ≤ second
  · rw [show max first second = second from if_pos ordered]
    exact Int64.le_refl second
  · rw [show max first second = first from if_neg ordered]
    exact (Int64.le_total first second).resolve_left ordered

theorem Relation.nextId_le_counterAfter {relation : Relation} {row : Row} :
    relation.nextId ≤ relation.counterAfter row := by
  rw [counterAfter]
  split
  · exact first_le_max _ _
  · exact Int64.le_refl _

namespace Table

variable {table other : Table} {column : Column} {tuple : Tuple} {value : Value}
variable {source target : String} {position : Nat}

theorem countedPosition?_eq (distinct : table.columnNames.Nodup) :
    table.countedPosition? = table.columns.findIdx? Column.autoincrement := by
  rw [countedPosition?, counted?, List.find?_eq_bind_findIdx?_getElem?]
  cases located : table.columns.findIdx? Column.autoincrement with
  | none => rfl
  | some position =>
      obtain ⟨within, -, -⟩ := List.findIdx?_eq_some_iff_getElem.mp located
      simp only [Option.bind_some, List.getElem?_eq_getElem within]
      rw [position?_eq_some_iff distinct, columnNames, List.getElem?_map,
        List.getElem?_eq_getElem within, Option.map_some]

theorem countedValue?_eq_of_columns (columns : other.columns = table.columns) :
    other.countedValue? = table.countedValue? := by
  funext tuple
  simp only [countedValue?, countedPosition?, counted?, position?, columnNames, columns]

theorem countedValue?_renameColumn (fresh : target ∉ table.columnNames)
    (distinct : table.columnNames.Nodup) :
    (table.renameColumn source target).countedValue? = table.countedValue? := by
  funext tuple
  rw [countedValue?, countedValue?, countedPosition?_eq distinct,
    countedPosition?_eq (renameColumn_distinct fresh distinct), renameColumn, List.findIdx?_map]
  rfl

/-- An added column is not counted, since it is no primary key. -/
theorem countedValue?_addColumn (plain : column.primaryKey = false)
    (valid : (table.addColumn column).check = .ok ())
    (same : tuple.length = table.columns.length) :
    (table.addColumn column).countedValue? (tuple ++ [value]) = table.countedValue? tuple := by
  obtain ⟨-, distinct, columns⟩ := check_eq_ok_iff.mp valid
  have former : table.columnNames.Nodup := by
    rw [columnNames_addColumn] at distinct
    exact (List.nodup_append.mp distinct).1
  have uncounted : column.autoincrement = false := by
    have checked := columns column (List.mem_append_right _ (List.mem_singleton.mpr rfl))
    cases counted : column.autoincrement with
    | false => rfl
    | true =>
        have key := ((Column.check_eq_ok_iff.mp checked).2.1 counted).1
        rw [plain] at key
        cases key
  have located : (table.addColumn column).countedPosition? = table.countedPosition? := by
    rw [countedPosition?_eq distinct, countedPosition?_eq former, addColumn, List.findIdx?_append]
    simp [List.findIdx?_cons, uncounted]
  rw [countedValue?, countedValue?, located]
  cases counted : table.countedPosition? with
  | none => rfl
  | some position =>
      rw [countedPosition?_eq former] at counted
      obtain ⟨within, -, -⟩ := List.findIdx?_eq_some_iff_getElem.mp counted
      simp only [Option.map_some, List.getD_eq_getElem?_getD,
        List.getElem?_append_left (same ▸ within)]

end Table

namespace Relation

variable {relation changed before between after : Relation} {row : Row} {number : Int64}
variable {positions : List Nat} {schema : Table}

/-- A row that is stored moves the counter past its number. -/
theorem counterAfter_eq (distinct : relation.schema.columnNames.Nodup) :
    relation.counterAfter row =
      match relation.schema.number? (relation.schema.tuple row) with
      | some number => max relation.nextId (followingId number)
      | none => relation.nextId := by
  rw [counterAfter_tuple distinct, Table.number?, Table.countedValue?]
  cases relation.schema.countedPosition? with
  | none => rfl
  | some position =>
      simp only [Option.map_some]
      cases (relation.schema.tuple row).getD position .null <;> rfl

theorem mem_countedValues {value : Value} :
    value ∈ relation.countedValues ↔
      ∃ row ∈ relation.rows,
        relation.schema.countedValue? (relation.schema.tuple row) = some value := by
  simp [countedValues, tuples]

theorem mem_numbers : number ∈ relation.numbers ↔ .integer number ∈ relation.countedValues := by
  simp only [numbers, countedValues, List.mem_filterMap]
  refine exists_congr fun tuple => and_congr_right fun _ => ?_
  rw [Table.number?]
  cases relation.schema.countedValue? tuple with
  | none => simp
  | some value => cases value <;> simp

theorem Advances.refl : relation.Advances relation :=
  ⟨Std.le_refl _, id⟩

theorem Advances.trans (first : before.Advances between) (second : between.Advances after) :
    before.Advances after :=
  ⟨Std.le_trans first.nextId second.nextId, second.passed ∘ first.passed⟩

/-- Where nothing comes into the counted column, it is enough that the counter does not move
back. -/
theorem Advances.of_subset (forward : before.nextId ≤ after.nextId)
    (fewer : after.countedValues ⊆ before.countedValues) : before.Advances after :=
  ⟨forward, fun passed number member =>
    Std.le_trans (passed number (mem_numbers.mpr (fewer (mem_numbers.mp member)))) forward⟩

/-- Rows that are stored already, and one that moves the counter. -/
theorem Advances.of_rows (distinct : relation.schema.columnNames.Nodup)
    (schema : changed.schema = relation.schema)
    (counter : changed.nextId = relation.counterAfter row)
    (rows : ∀ other ∈ changed.rows, other ∈ relation.rows ∨ other = row) :
    relation.Advances changed := by
  have forward : relation.nextId ≤ changed.nextId := counter ▸ nextId_le_counterAfter
  refine ⟨forward, fun passed number member => ?_⟩
  obtain ⟨other, stored, value⟩ := mem_countedValues.mp (mem_numbers.mp member)
  rw [schema] at value
  rcases rows other stored with former | rfl
  · have known := mem_numbers.mpr (mem_countedValues.mpr ⟨other, former, value⟩)
    exact Std.le_trans (passed number known) forward
  · simp only [counter, counterAfter_eq distinct, Table.number?, value]
    exact second_le_max _ _

theorem insert_advances (distinct : relation.schema.columnNames.Nodup) :
    relation.Advances (relation.insert row) := by
  refine .of_rows distinct rfl rfl fun other member => ?_
  simpa [insert] using member

theorem nextId_update {position : Nat} (updated : relation.update position row = .ok changed) :
    changed.nextId = relation.counterAfter row := by
  obtain ⟨former, -, rfl⟩ := update_eq_ok_iff.mp updated
  rfl

theorem update_advances {position : Nat} (distinct : relation.schema.columnNames.Nodup)
    (updated : relation.update position row = .ok changed) : relation.Advances changed := by
  obtain ⟨former, -, rfl⟩ := update_eq_ok_iff.mp updated
  exact .of_rows distinct rfl rfl fun other member => List.mem_or_eq_of_mem_set member

theorem countedValues_delete :
    (relation.delete positions).countedValues ⊆ relation.countedValues := by
  intro value member
  obtain ⟨row, stored, held⟩ := mem_countedValues.mp member
  rw [schema_delete] at held
  rw [rows_delete] at stored
  exact mem_countedValues.mpr ⟨row, (rowsOutside_sublist 0 relation.rows).subset stored, held⟩

theorem delete_advances : relation.Advances (relation.delete positions) :=
  .of_subset (Std.le_of_eq nextId_delete.symm) countedValues_delete

theorem countedValues_alter (columns : schema.columns = relation.schema.columns) :
    (relation.alter schema).countedValues ⊆ relation.countedValues := by
  intro value member
  obtain ⟨row, stored, held⟩ := mem_countedValues.mp member
  refine mem_countedValues.mpr ⟨row, stored, ?_⟩
  rw [← held]
  simp only [alter, build, Table.countedValue?_eq_of_columns columns, Table.tuple,
    Table.columnNames, columns]

/-- Rows that are rewritten may keep what they have in the counted column. -/
theorem countedValues_rewrite {change : Row → Row}
    (same : ∀ row ∈ relation.rows, schema.countedValue? (schema.tuple (change row)) =
      relation.schema.countedValue? (relation.schema.tuple row))
    (rewritten : relation.rewrite schema change = .ok changed) :
    changed.countedValues ⊆ relation.countedValues := by
  obtain ⟨kept, rows, -⟩ := rewrite_spec rewritten
  intro value member
  obtain ⟨row, stored, held⟩ := mem_countedValues.mp member
  rw [rows] at stored
  obtain ⟨former, listed, rfl⟩ := List.mem_map.mp stored
  rw [kept, same former listed] at held
  exact mem_countedValues.mpr ⟨former, listed, held⟩

theorem nextId_le_updateFrom {position : Nat} {rows : List Row}
    (updated : relation.updateFrom position rows = .ok changed) :
    relation.nextId ≤ changed.nextId := by
  induction rows generalizing relation position with
  | nil =>
      cases updated
      exact Std.le_refl _
  | cons row rest ih =>
      simp only [updateFrom, bind_eq_ok_iff] at updated
      obtain ⟨next, first, updated⟩ := updated
      exact Std.le_trans (nextId_update first ▸ nextId_le_counterAfter) (ih updated)

theorem nextId_le_rewrite {change : Row → Row}
    (rewritten : relation.rewrite schema change = .ok changed) :
    relation.nextId ≤ changed.nextId :=
  (nextId_le_updateFrom rewritten : (relation.alter schema).nextId ≤ changed.nextId)

theorem foldl_insert_advances {tuples : List Tuple} (distinct : relation.schema.columnNames.Nodup) :
    relation.Advances
      (tuples.foldl (fun relation tuple => relation.insert (schema.row tuple)) relation) := by
  induction tuples generalizing relation with
  | nil => exact .refl
  | cons tuple rest ih => exact (insert_advances distinct).trans (ih distinct)

theorem writeInsertion_advances {staged : Staged}
    (distinct : staged.relation.schema.columnNames.Nodup) :
    staged.relation.Advances (writeInsertion staged).relation := by
  refine delete_advances.trans (foldl_insert_advances ?_)
  rw [schema_delete]
  exact distinct

theorem writeUpdate_advances {staged : Staged}
    (distinct : staged.relation.schema.columnNames.Nodup)
    (written : writeUpdate staged = .ok changed) : staged.relation.Advances changed := by
  simp only [writeUpdate, bind_eq_ok_iff, pure_eq_ok_iff] at written
  obtain ⟨updated, run, rfl⟩ := written
  obtain ⟨-, advances⟩ := foldlM_ok_invariant
    (fun changed => changed.schema = staged.relation.schema ∧ staged.relation.Advances changed)
    (fun state entry after _ held step => by
      obtain ⟨schema, advances⟩ := held
      refine ⟨(schema_update step).trans schema, advances.trans (update_advances ?_ step)⟩
      rw [schema]
      exact distinct) ⟨rfl, .refl⟩ run
  exact advances.trans delete_advances

/-- Only insertions and updates bring something into the counted column. -/
theorem Becomes.counted_cases (wellFormed : relation.WellFormed)
    (becomes : relation.Becomes changed) :
    (relation.nextId ≤ changed.nextId ∧ changed.countedValues ⊆ relation.countedValues) ∨
    (∃ columns resolution rows written,
      relation.insertAll columns resolution rows = .ok written ∧ changed = written.relation) ∨
    ∃ filter assignments resolution count,
      relation.updateAll filter assignments resolution = .ok (changed, count) := by
  have distinct := wellFormed.distinct
  cases becomes with
  | same => exact .inl ⟨Std.le_refl _, List.Subset.refl _⟩
  | altered columns => exact .inl ⟨Std.le_refl _, countedValues_alter columns⟩
  | columnAdded plain valid rewritten =>
      refine .inl ⟨nextId_le_rewrite rewritten,
        countedValues_rewrite (fun row stored => ?_) rewritten⟩
      have held := wellFormed.rowsHeld row stored
      rw [Table.tuple_addColumn (Table.columnNames_nodup valid) held.columns,
        Table.countedValue?_addColumn plain.1 valid Table.length_tuple]
  | columnRenamed fresh rewritten =>
      refine .inl ⟨nextId_le_rewrite rewritten,
        countedValues_rewrite (fun row stored => ?_) rewritten⟩
      have held := wellFormed.rowsHeld row stored
      rw [Table.tuple_renameColumn fresh distinct held.columns,
        Table.countedValue?_renameColumn fresh distinct]
  | inserted inserts => exact .inr (.inl ⟨_, _, _, _, inserts, rfl⟩)
  | updated updates => exact .inr (.inr ⟨_, _, _, _, updates⟩)
  | deleted => exact .inl ⟨Std.le_of_eq nextId_delete.symm, countedValues_delete⟩

/-- Whatever a relation becomes, its counter does not move back, and is past all numbers. -/
theorem Becomes.advances (wellFormed : relation.WellFormed) (becomes : relation.Becomes changed) :
    relation.Advances changed := by
  rcases becomes.counted_cases wellFormed with
    ⟨forward, fewer⟩ | ⟨_, _, _, _, inserts, rfl⟩ | ⟨_, _, _, _, updates⟩
  · exact .of_subset forward fewer
  · simp only [insertAll, bind_eq_ok_iff, pure_eq_ok_iff] at inserts
    obtain ⟨staged, stages, rfl⟩ := inserts
    obtain ⟨rfl, -, -⟩ := stageInsertion_sound wellFormed stages
    exact writeInsertion_advances wellFormed.distinct
  · simp only [updateAll, bind_eq_ok_iff, pure_eq_ok_iff, Prod.mk.injEq] at updates
    obtain ⟨staged, stages, written, writes, rfl, -⟩ := updates
    obtain ⟨rfl, -, -⟩ := stageUpdate_sound wellFormed stages
    exact writeUpdate_advances wellFormed.distinct writes

theorem passed_invariant : Invariant Passed where
  created schema _ := by
    intro number member
    simp [numbers, tuples, new, build] at member
  becomes _ _ wellFormed passed becomes := (becomes.advances wellFormed).passed passed

end Relation

/-! ## Insertions -/

section

variable {table : Table} {tuple : Tuple} {nextId number : Int64} {relation : Relation}
variable {columns : Option (List String)} {resolution : Resolution} {state next : Inserting}
variable {values : List Value} {rows : List (List Value)} {row : RowNumber}

/-- Once a tuple has its number, the counter is not before it, and is past the number. -/
theorem numberTuple_forward
    (within : ∀ position, table.countedPosition? = some position → position < tuple.length)
    (room : ∀ number,
      table.number? (numberTuple table.countedPosition? nextId tuple).1 = some number →
        number < Int64.maxValue) :
    nextId ≤ (numberTuple table.countedPosition? nextId tuple).2 ∧
      ∀ number, table.number? (numberTuple table.countedPosition? nextId tuple).1 = some number →
        number < (numberTuple table.countedPosition? nextId tuple).2 := by
  cases counted : table.countedPosition? with
  | none =>
      refine ⟨Int64.le_refl _, fun number numbered => ?_⟩
      simp [Table.number?, Table.countedValue?, counted] at numbered
  | some position =>
      simp only [Table.number?, Table.countedValue?, counted, Option.map_some, numberTuple]
        at room ⊢
      cases held : tuple.getD position .null with
      | null =>
          have numbered : (tuple.set position (.integer nextId)).getD position .null =
              .integer nextId := by
            simp [List.getD_eq_getElem?_getD, within position counted]
          simp only [held, numbered] at room ⊢
          have below := room nextId rfl
          have moved := followingId_of_lt below
          have past := lt_followingId below
          refine ⟨moved ▸ first_le_max _ _, ?_⟩
          rintro number ⟨⟩
          exact Std.lt_of_lt_of_le past (moved ▸ second_le_max _ _)
      | integer id =>
          simp only [held] at room ⊢
          refine ⟨first_le_max _ _, ?_⟩
          rintro number ⟨⟩
          exact Std.lt_of_lt_of_le (lt_followingId (room id rfl)) (second_le_max _ _)
      | real x =>
          simp only [held]
          refine ⟨Int64.le_refl _, ?_⟩
          rintro number ⟨⟩
      | text content =>
          simp only [held]
          refine ⟨Int64.le_refl _, ?_⟩
          rintro number ⟨⟩

theorem length_insertTuple {targets : List Nat} :
    (insertTuple table targets values).length = table.columns.length := by
  have kept : ∀ (pairs : List (Nat × Value)) (tuple : Tuple),
      (pairs.foldl (fun tuple pair => tuple.set pair.1 pair.2) tuple).length = tuple.length := by
    intro pairs
    induction pairs with
    | nil => exact fun _ => rfl
    | cons pair rest ih => exact fun tuple => (ih _).trans List.length_set
  simp [insertTuple, kept]

theorem taken_of_rowNumber? (member : row ∈ state.rowNumber? columns values) :
    row.taken = state.staged.relation.schema.takesNumber columns values := by
  simp only [Inserting.rowNumber?, Option.mem_def] at member
  split at member
  · cases member
  · obtain ⟨number, -, rfl⟩ := Option.map_eq_some_iff.mp member
    rfl

/-- A row takes the number at which the counter stands. -/
theorem rowNumber?_of_takesNumber (wellFormed : relation.WellFormed)
    (sound : state.Sound relation)
    (taken : state.staged.relation.schema.takesNumber columns values = true) :
    state.rowNumber? columns values = some ⟨state.nextId, true⟩ := by
  simp only [Inserting.rowNumber?, taken]
  simp only [Table.takesNumber] at taken
  split at taken
  · rename_i position targets counted targeted
    have within : position < state.staged.relation.schema.columns.length := by
      rw [sound.relation_eq] at counted ⊢
      exact Table.lt_of_countedPosition? wellFormed.distinct counted
    cases held : (insertTuple state.staged.relation.schema targets values).getD position .null with
    | null =>
        have numbered : ((insertTuple state.staged.relation.schema targets values).set position
            (.integer state.nextId)).getD position .null = .integer state.nextId := by
          simp [List.getD_eq_getElem?_getD, length_insertTuple, within]
        simp only [targeted, counted, numberTuple, held, Table.number?, Table.countedValue?,
          Option.map_some, numbered]
    | _ =>
        rw [held] at taken
        cases taken
  · cases taken

theorem number_of_taken (wellFormed : relation.WellFormed) (sound : state.Sound relation)
    (member : row ∈ state.rowNumber? columns values) (taken : row.taken = true) :
    row.number = state.nextId := by
  rw [taken_of_rowNumber? member] at taken
  cases (rowNumber?_of_takesNumber wellFormed sound taken).symm.trans member
  rfl

/-- A row that is inserted leaves the counter past its number. -/
theorem insertValues_forward (wellFormed : relation.WellFormed) (sound : state.Sound relation)
    (room : ∀ row ∈ state.rowNumber? columns values, row.number < Int64.maxValue)
    (inserted : insertValues columns resolution state values = .ok next) :
    state.nextId ≤ next.nextId ∧
      ∀ row ∈ state.rowNumber? columns values, row.number < next.nextId := by
  simp only [insertValues, bind_eq_ok_iff] at inserted
  obtain ⟨targets, targeted, _, -, accepted, -, finished⟩ := inserted
  have moved : next.nextId =
      (numberTuple state.staged.relation.schema.countedPosition? state.nextId
        (insertTuple state.staged.relation.schema targets values)).2 := by
    cases accepted <;> cases pure_eq_ok_iff.mp finished <;> rfl
  simp only [Inserting.rowNumber?, targeted, Option.mem_def, Option.map_eq_some_iff] at room ⊢
  rw [moved]
  obtain ⟨forward, past⟩ := @numberTuple_forward state.staged.relation.schema
    (insertTuple state.staged.relation.schema targets values) state.nextId
    (fun position counted => by
      rw [length_insertTuple]
      rw [sound.relation_eq] at counted ⊢
      exact Table.lt_of_countedPosition? wellFormed.distinct counted)
    fun number numbered => room _ ⟨number, numbered, rfl⟩
  refine ⟨forward, ?_⟩
  rintro _ ⟨number, numbered, rfl⟩
  exact past number numbered

/-- Numbers that rows take are not before the counter, and are past the numbers of all rows before
them. -/
theorem rowNumbers_forward (wellFormed : relation.WellFormed) (sound : state.Sound relation)
    (room : ∀ row ∈ state.rowNumbers columns resolution rows, row.number < Int64.maxValue) :
    (∀ row ∈ state.rowNumbers columns resolution rows, row.taken = true →
      state.nextId ≤ row.number) ∧
    (state.rowNumbers columns resolution rows).Pairwise fun earlier later =>
      later.taken = true → earlier.number < later.number := by
  induction rows generalizing state with
  | nil => exact ⟨nofun, .nil⟩
  | cons values rest ih =>
      rw [Inserting.rowNumbers] at room ⊢
      have first (row : RowNumber) (member : row ∈ (state.rowNumber? columns values).toList)
          (taken : row.taken = true) : state.nextId ≤ row.number :=
        Std.le_of_eq (number_of_taken wellFormed sound (Option.mem_toList.mp member) taken).symm
      have single : (state.rowNumber? columns values).toList.Pairwise fun earlier later =>
          later.taken = true → earlier.number < later.number := by
        cases state.rowNumber? columns values with
        | none => exact .nil
        | some row => exact List.pairwise_singleton _ _
      cases inserted : insertValues columns resolution state values with
      | error error =>
          simp only [List.append_nil]
          exact ⟨first, single⟩
      | ok next =>
          simp only [inserted] at room ⊢
          obtain ⟨forward, past⟩ := insertValues_forward wellFormed sound
            (fun row member => room row (List.mem_append_left _ (Option.mem_toList.mpr member)))
            inserted
          obtain ⟨onward, ascending⟩ := ih (insertValues_sound sound inserted)
            fun row member => room row (List.mem_append_right _ member)
          refine ⟨fun row member taken => ?_, List.pairwise_append.mpr ⟨single, ascending, ?_⟩⟩
          · rcases List.mem_append.mp member with here | later
            · exact first row here taken
            · exact Std.le_trans forward (onward row later taken)
          · intro earlier here later member taken
            exact Std.lt_of_lt_of_le (past earlier (Option.mem_toList.mp here))
              (onward later member taken)

/-- The numbers that are taken from the counter are those of the rows that take one. -/
theorem numbersTaken_eq (wellFormed : relation.WellFormed) (sound : state.Sound relation) :
    state.numbersTaken columns resolution rows =
      ((state.rowNumbers columns resolution rows).filter RowNumber.taken).map
        RowNumber.number := by
  induction rows generalizing state with
  | nil => rfl
  | cons values rest ih =>
      have single : (if state.staged.relation.schema.takesNumber columns values
            then [state.nextId] else []) =
          ((state.rowNumber? columns values).toList.filter RowNumber.taken).map
            RowNumber.number := by
        cases taken : state.staged.relation.schema.takesNumber columns values with
        | true => rw [rowNumber?_of_takesNumber wellFormed sound taken]; rfl
        | false =>
            rw [if_neg Bool.false_ne_true, eq_comm, List.map_eq_nil_iff, List.filter_eq_nil_iff]
            intro row member
            rw [taken_of_rowNumber? (Option.mem_toList.mp member), taken]
            exact Bool.false_ne_true
      rw [Inserting.numbersTaken, Inserting.rowNumbers, List.filter_append, List.map_append, single]
      cases inserted : insertValues columns resolution state values with
      | error error => rfl
      | ok next => rw [← ih (insertValues_sound sound inserted)]

end

namespace Database

variable {database : Database} {calls : List Call} {relation : Relation} {name target : String}
variable {request : Request}

/-- A table that is not dropped keeps its counter, or has it moved forward. -/
theorem nextId_after (wellFormed : database.WellFormed)
    (found : database.state.store.relation name = .ok relation)
    (onward : database.NeverRolledBack calls)
    (kept : database.nameAfterAll name calls = some target) :
    ∃ changed, (database.after calls).state.store.relation target = .ok changed ∧
      relation.nextId ≤ changed.nextId := by
  induction calls generalizing database name relation with
  | nil =>
      cases kept
      exact ⟨relation, found, Int64.le_refl _⟩
  | cons call rest ih =>
      obtain ⟨next, named, kept⟩ := Option.bind_eq_some_iff.mp kept
      obtain ⟨changed, foundNext, becomes⟩ := relation_step wellFormed found onward.1 named
      have formed := wellFormed.current.store.relations _ (Store.relation_eq_ok_iff.mp found)
      obtain ⟨last, foundLast, forward⟩ :=
        ih (step_wellFormed wellFormed) foundNext onward.2 kept
      exact ⟨last, foundLast, Std.le_trans (becomes.advances formed).nextId forward⟩

/-- The numbers of a statement are those of an insertion into the relation of the table, if it has
any. -/
theorem rowNumbers_cases (database : Database) (target : String) (request : Request) :
    database.rowNumbers target request = [] ∨
      ∃ relation columns resolution rows,
        database.state.store.relation target = .ok relation ∧
        database.rowNumbers target request =
          (Inserting.start relation).rowNumbers columns resolution rows := by
  rw [rowNumbers]
  split
  · rename_i numbers given
    simp only [bind_eq_ok_iff] at given
    obtain ⟨parsed, -, _, -, plan, -, given⟩ := given
    split at given
    · split at given
      · cases given
        exact .inl rfl
      · rename_i same
        simp only [Decidable.not_not] at same
        subst same
        simp only [bind_eq_ok_iff, pure_eq_ok_iff] at given
        obtain ⟨relation, found, set, -, rfl⟩ := given
        exact .inr ⟨relation, _, _, _, found, rfl⟩
    · cases given
      exact .inl rfl
  · exact .inl rfl

/-- However a table is changed, renamed or has its columns renamed after some numbers were stored
in it, as long as it is not dropped and nothing is rolled back: a row that then takes its number
from the counter has a greater one than any of them, and than any row before it in the same
statement. -/
theorem numbers_never_reused (reached : database.Reachable)
    (found : database.state.store.relation name = .ok relation)
    (onward : database.NeverRolledBack calls)
    (kept : database.nameAfterAll name calls = some target)
    (stored : ∀ number ∈ relation.numbers, number < Int64.maxValue)
    (given : ∀ row ∈ (database.after calls).rowNumbers target request,
      row.number < Int64.maxValue) :
    (∀ row ∈ (database.after calls).rowNumbers target request, row.taken = true →
      ∀ number ∈ relation.numbers, number < row.number) ∧
    ((database.after calls).rowNumbers target request).Pairwise fun earlier later =>
      later.taken = true → earlier.number < later.number := by
  rcases rowNumbers_cases (database.after calls) target request with
    none | ⟨other, columns, resolution, rows, foundOther, numbers⟩
  · rw [none]
    exact ⟨nofun, .nil⟩
  · have wellFormed := reached.wellFormed
    obtain ⟨changed, foundChanged, forward⟩ := nextId_after wellFormed found onward kept
    cases foundOther.symm.trans foundChanged
    have formed := (after_wellFormed wellFormed).current.store.relations _
      (Store.relation_eq_ok_iff.mp foundChanged)
    rw [numbers] at given ⊢
    obtain ⟨least, ascending⟩ := rowNumbers_forward formed (start_sound formed) given
    refine ⟨fun row member taken number former => ?_, ascending⟩
    have passed := reached.relation_holds Relation.passed_invariant found number former
    have past := Std.lt_of_lt_of_le (lt_followingId (stored number former)) passed
    exact Std.lt_of_lt_of_le past (Std.le_trans forward (least row member taken))

/-- The numbers of rows that are gone, one of them given by an update, stay used under other names
of the table and its key. -/
theorem numbers_never_reused_after_deletion :
    let ask (sql : String) : Call := .query { sql, parameters := [], caller := .local }
    let database := fromTexts ["CREATE TABLE users (name TEXT UNIQUE)",
      "INSERT INTO users (name) VALUES ('ann'), ('bob')", "UPDATE users SET id = 7 WHERE id = 2"]
    let calls := [ask "DELETE FROM users", ask "ALTER TABLE users RENAME TO people",
      ask "ALTER TABLE people RENAME COLUMN id TO number"]
    let request : Request :=
      { sql := "INSERT OR IGNORE INTO people (name) VALUES ('cid'), ('cid'), ('dan')"
        parameters := [], caller := .local }
    ∃ relation, database.state.store.relation "users" = .ok relation ∧
      relation.numbers = [1, 7] ∧ database.nameAfterAll "users" calls = some "people" ∧
      (database.after calls).rowNumbers "people" request =
        [⟨8, true⟩, ⟨9, true⟩, ⟨10, true⟩] ∧
      (∀ row ∈ (database.after calls).rowNumbers "people" request, row.taken = true →
        ∀ number ∈ relation.numbers, number < row.number) ∧
      ((database.after calls).rowNumbers "people" request).Pairwise fun earlier later =>
        later.taken = true → earlier.number < later.number := by
  intro ask database calls request
  have reached : database.Reachable := fromTexts_reachable
  have numbered : (database.state.store.relation "users").map Relation.numbers = .ok [1, 7] := by
    decide +kernel
  obtain ⟨relation, found, numbers⟩ := map_eq_ok_iff.mp numbered
  have onward : database.NeverRolledBack calls := by
    simp only [calls, NeverRolledBack, and_true]
    decide +kernel
  have kept : database.nameAfterAll "users" calls = some "people" := by decide +kernel
  have given : (database.after calls).rowNumbers "people" request =
      [⟨8, true⟩, ⟨9, true⟩, ⟨10, true⟩] := by decide +kernel
  refine ⟨relation, found, numbers, kept, given, ?_⟩
  refine numbers_never_reused reached found onward kept ?_ ?_
  · rw [numbers]
    exact List.forall_mem_cons.mpr ⟨by decide, List.forall_mem_singleton.mpr (by decide)⟩
  · rw [given]
    decide

end Database

end Coffer
