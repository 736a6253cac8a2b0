import Mathlib.Data.List.Basic
import Coffer.Proofs.KeyIndex
import Coffer.Proofs.Table

namespace Coffer.Relation

/-! # Relations and their key indexes -/

variable {relation after : Relation} {schema : Table} {row : Row} {rows : List Row}
variable {column position : Nat} {key : Key} {positions : List Nat}

/-- The key of the row at a position in a column. -/
def keyAmong (schema : Table) (rows : List Row) (column position : Nat) : Option Key :=
  rows[position]?.bind fun row => keyOf schema row column

def keyAt (relation : Relation) : Nat → Nat → Option Key :=
  keyAmong relation.schema relation.rows

/-- The key indexes of a relation tell of its rows as they are. -/
def Indexed (relation : Relation) : Prop :=
  Reflected relation.keys relation.schema.uniqueColumns relation.keyAt

/-- A row that comes behind others enters the key indexes. -/
theorem enter_reflected (row : Row) {keys : List (Nat × KeyIndex)} {columns : List Nat}
    (reflected : Reflected keys columns (keyAmong schema rows)) :
    Reflected (enter schema rows.length row keys) columns (keyAmong schema (rows ++ [row])) :=
  reflected.add (keyOf schema row)
    (fun column => by simp [keyAmong]) (fun column => by simp [keyAmong])
    fun column place different => by
      simp only [keyAmong]
      by_cases within : place < rows.length
      · rw [List.getElem?_append_left within]
      · have beyond : (rows ++ [row]).length ≤ place := by
          rw [List.length_append, List.length_singleton]
          omega
        rw [List.getElem?_eq_none beyond, List.getElem?_eq_none (Nat.le_of_not_lt within)]

theorem enterAll_reflected (rest : List Row) {keys : List (Nat × KeyIndex)} {columns : List Nat}
    {before : List Row} (reflected : Reflected keys columns (keyAmong schema before)) :
    Reflected (enterAll schema before.length rest keys) columns
      (keyAmong schema (before ++ rest)) := by
  induction rest generalizing before keys with
  | nil => simpa [enterAll] using reflected
  | cons row rest ih =>
      have next := ih (enter_reflected row reflected)
      simpa [enterAll] using next

theorem build_indexed {nextId : Int64} : (build schema rows nextId).Indexed := by
  have start : Reflected (schema.uniqueColumns.map fun column => (column, .empty))
      schema.uniqueColumns (keyAmong schema []) :=
    (Reflected.initial schema.uniqueColumns).congr fun column _ position => by simp [keyAmong]
  exact enterAll_reflected rows start

theorem insert_indexed (indexed : relation.Indexed) : (relation.insert row).Indexed :=
  enter_reflected row indexed

theorem update_eq_ok_iff :
    relation.update position row = .ok after ↔
      ∃ former, relation.rows[position]? = some former ∧ after =
        { relation with
          rows := relation.rows.set position row
          nextId := relation.counterAfter row
          keys := enter relation.schema position row
            (withdraw relation.schema position former relation.keys) } := by
  simp only [update]
  split
  · rename_i missing
    simp [missing]
  · rename_i former found
    simp only [found, Except.ok.injEq, Option.some.injEq, exists_eq_left']
    exact eq_comm

theorem schema_update (updated : relation.update position row = .ok after) :
    after.schema = relation.schema := by
  obtain ⟨former, -, rfl⟩ := update_eq_ok_iff.mp updated
  rfl

theorem rows_update (updated : relation.update position row = .ok after) :
    after.rows = relation.rows.set position row := by
  obtain ⟨former, -, rfl⟩ := update_eq_ok_iff.mp updated
  rfl

theorem update_exists (row : Row) (within : position < relation.rows.length) :
    ∃ after, relation.update position row = .ok after :=
  ⟨_, update_eq_ok_iff.mpr ⟨_, List.getElem?_eq_getElem within, rfl⟩⟩

/-- The former row is withdrawn from the indexes before the new one enters. -/
theorem update_indexed (indexed : relation.Indexed)
    (updated : relation.update position row = .ok after) : after.Indexed := by
  obtain ⟨former, found, rfl⟩ := update_eq_ok_iff.mp updated
  have within : position < relation.rows.length := by
    cases Nat.lt_or_ge position relation.rows.length with
    | inl within => exact within
    | inr beyond => simp [List.getElem?_eq_none beyond] at found
  let vacated : Nat → Nat → Option Key := fun column place =>
    if place = position then none else relation.keyAt column place
  have withdrawn : Reflected (withdraw relation.schema position former relation.keys)
      relation.schema.uniqueColumns vacated :=
    Reflected.remove (keyOf relation.schema former) indexed
      (fun column => by simp [keyAt, keyAmong, found]) (fun column => by simp [vacated])
      fun column place different => by simp [vacated, different]
  refine Reflected.add (keyOf relation.schema row) withdrawn
    (fun column => by simp [vacated])
    (fun column => by simp [keyAt, keyAmong, List.getElem?_set_self within]) ?_
  intro column place different
  simp [keyAt, keyAmong, vacated, different, List.getElem?_set_ne (Ne.symm different)]

theorem rowsOutside_eq_filterMap (start : Nat) (rows : List Row) :
    rowsOutside positions start rows =
      (List.range' start rows.length).filterMap fun position =>
        if position ∈ positions then none else rows[position - start]? := by
  induction rows generalizing start with
  | nil => simp [rowsOutside]
  | cons row rest ih =>
      have later : (List.range' (start + 1) rest.length).filterMap (fun position =>
            if position ∈ positions then none else (row :: rest)[position - start]?) =
          (List.range' (start + 1) rest.length).filterMap fun position =>
            if position ∈ positions then none else rest[position - (start + 1)]? := by
        apply List.filterMap_congr
        intro position member
        have above := (List.mem_range'_1.mp member).1
        have shifted : position - start = position - (start + 1) + 1 := by omega
        rw [shifted, List.getElem?_cons_succ]
      rw [rowsOutside, List.length_cons, List.range'_succ, List.filterMap_cons, later, ← ih]
      by_cases removed : start ∈ positions <;> simp [removed]

theorem rowsOutside_sublist (start : Nat) (rows : List Row) :
    (rowsOutside positions start rows).Sublist rows := by
  induction rows generalizing start with
  | nil => simp [rowsOutside]
  | cons row rest ih =>
      simp only [rowsOutside]
      split
      · exact (ih (start + 1)).cons row
      · exact (ih (start + 1)).cons_cons row

theorem schema_delete : (relation.delete positions).schema = relation.schema := by
  simp only [delete]
  split <;> rfl

theorem rows_delete : (relation.delete positions).rows = rowsOutside positions 0 relation.rows := by
  simp only [delete]
  split
  · rename_i all
    exact ((rowsOutside_sublist 0 relation.rows).eq_of_length all).symm
  · rfl

theorem delete_indexed (indexed : relation.Indexed) : (relation.delete positions).Indexed := by
  simp only [delete]
  split
  · exact indexed
  · exact build_indexed

/-- What a lookup lists are the positions of the rows that have the key, whether the column
has an index or the rows are scanned. -/
theorem mem_positionsOf (indexed : relation.Indexed) :
    position ∈ relation.positionsOf column key ↔ relation.keyAt column position = some key := by
  by_cases listed : column ∈ relation.schema.uniqueColumns
  · obtain ⟨index, found, reflects⟩ := indexed.lookup listed
    simp only [positionsOf, found]
    exact reflects.mem_positions key position
  · simp only [positionsOf, indexed.lookup_of_absent listed, List.mem_filter, List.mem_range,
      beq_iff_eq, keyAt, keyAmong]
    constructor
    · exact fun found => found.2
    · intro found
      refine ⟨?_, found⟩
      cases Nat.lt_or_ge position relation.rows.length with
      | inl within => exact within
      | inr beyond => simp [List.getElem?_eq_none beyond] at found

/-- Rows of which no two share a key in a column. -/
def Apart (schema : Table) (rows : List Row) (column : Nat) : Prop :=
  rows.Pairwise fun first second => ∀ key,
    keyOf schema first column = some key → keyOf schema second column ≠ some key

theorem Apart.sublist {fewer : List Row} (apart : Apart schema rows column)
    (sublist : fewer.Sublist rows) : Apart schema fewer column :=
  List.Pairwise.sublist sublist apart

theorem Apart.keyAmong_injective {first second : Nat} (apart : Apart schema rows column)
    (firstKey : keyAmong schema rows column first = some key)
    (secondKey : keyAmong schema rows column second = some key) : first = second := by
  have pairs := List.pairwise_iff_getElem.mp apart
  obtain ⟨firstRow, firstFound, firstKey⟩ := Option.bind_eq_some_iff.mp firstKey
  obtain ⟨secondRow, secondFound, secondKey⟩ := Option.bind_eq_some_iff.mp secondKey
  obtain ⟨firstWithin, rfl⟩ := List.getElem?_eq_some_iff.mp firstFound
  obtain ⟨secondWithin, rfl⟩ := List.getElem?_eq_some_iff.mp secondFound
  rcases Nat.lt_trichotomy first second with before | same | behind
  · exact absurd secondKey (pairs first second firstWithin secondWithin before key firstKey)
  · exact same
  · exact absurd firstKey (pairs second first secondWithin firstWithin behind key secondKey)

/-- A relation as it should be at all times. -/
structure WellFormed (relation : Relation) : Prop where
  schemaValid : relation.schema.check = .ok ()
  indexColumns : ∀ index ∈ relation.schema.indexes, ∀ column ∈ index.columns,
    column ∈ relation.schema.columnNames
  rowsHeld : ∀ row ∈ relation.rows, relation.schema.Holds row
  keysDistinct : ∀ column ∈ relation.schema.uniqueColumns,
    Apart relation.schema relation.rows column
  indexed : relation.Indexed

theorem WellFormed.distinct (wellFormed : relation.WellFormed) :
    relation.schema.columnNames.Nodup :=
  Table.columnNames_nodup wellFormed.schemaValid

theorem WellFormed.keyAt_injective (wellFormed : relation.WellFormed)
    (unique : column ∈ relation.schema.uniqueColumns) {first second : Nat}
    (firstKey : relation.keyAt column first = some key)
    (secondKey : relation.keyAt column second = some key) : first = second :=
  (wellFormed.keysDistinct column unique).keyAmong_injective firstKey secondKey

end Coffer.Relation
