import Mathlib.Data.List.Nodup
import Coffer.Change.Schema
import Coffer.Proofs.Relation
import Coffer.Proofs.Result

namespace Coffer

/-! # Changes of schemas

A relation under another schema is well-formed where the rows fit that schema, and the
columns that are unique there were so before, or are found to be.
-/

namespace Relation

variable {relation after : Relation} {schema : Table} {rows before : List Row}
variable {column : Column} {index : Index} {source target : String}

theorem WellFormed.build {nextId : Int64} (valid : schema.check = .ok ())
    (indexColumns : ∀ index ∈ schema.indexes, ∀ column ∈ index.columns,
      column ∈ schema.columnNames)
    (held : ∀ row ∈ rows, schema.Holds row)
    (apart : ∀ column ∈ schema.uniqueColumns, Apart schema rows column) :
    (Relation.build schema rows nextId).WellFormed :=
  ⟨valid, indexColumns, held, apart, build_indexed⟩

/-- A schema with the same columns, under whatever name and with whatever indexes. -/
theorem alter_wellFormed (wellFormed : relation.WellFormed)
    (columns : schema.columns = relation.schema.columns)
    (indexColumns : ∀ index ∈ schema.indexes, ∀ column ∈ index.columns,
      column ∈ schema.columnNames)
    (apart : ∀ column ∈ schema.uniqueColumns, Apart relation.schema relation.rows column) :
    (relation.alter schema).WellFormed := by
  have names : schema.columnNames = relation.schema.columnNames := by
    rw [Table.columnNames, columns, Table.columnNames]
  have tuple : schema.tuple = relation.schema.tuple := by
    funext row
    rw [Table.tuple, names, Table.tuple]
  have keys : keyOf schema = keyOf relation.schema := by
    funext row column
    rw [keyOf, tuple, keyOf]
  refine WellFormed.build ?_ indexColumns ?_ ?_
  · have valid := Table.check_eq_ok_iff.mp wellFormed.schemaValid
    simp only [Table.check_eq_ok_iff, columns, names, Column.check_eq_ok_iff] at valid ⊢
    exact valid
  · intro row member
    obtain ⟨found, values⟩ := wellFormed.rowsHeld row member
    refine ⟨found.trans names.symm, ?_⟩
    simp only [Table.checkTuple_eq_ok_iff, tuple, columns, Column.checkValue_eq_ok_iff] at values ⊢
    exact values
  · intro column unique
    rw [Apart, keys]
    exact apart column unique

/-- A table may go by another name. -/
theorem renameTable_wellFormed (wellFormed : relation.WellFormed) :
    (relation.alter { relation.schema with name := target }).WellFormed :=
  alter_wellFormed wellFormed rfl wellFormed.indexColumns wellFormed.keysDistinct

theorem removeIndex_wellFormed (wellFormed : relation.WellFormed) :
    (relation.alter (relation.schema.removeIndex target)).WellFormed := by
  refine alter_wellFormed wellFormed rfl ?_ ?_
  · exact fun index member => wellFormed.indexColumns index (List.mem_filter.mp member).1
  · intro column unique
    refine wellFormed.keysDistinct column (Table.mem_uniqueColumns.mpr ?_)
    rcases Table.mem_uniqueColumns.mp unique with declared | ⟨index, member, found⟩
    · exact .inl declared
    · exact .inr ⟨index, (List.mem_filter.mp member).1, found⟩

theorem forall_mem_of_mapM {names : List String} {positions : List Nat}
    (located : names.mapM schema.position = .ok positions) :
    ∀ name ∈ names, name ∈ schema.columnNames := by
  induction names generalizing positions with
  | nil => simp
  | cons name rest ih =>
      simp only [List.mapM_cons, bind_eq_ok_iff] at located
      obtain ⟨position, found, others, rests, -⟩ := located
      refine List.forall_mem_cons.mpr ⟨?_, ih rests⟩
      have present := Table.position_eq_ok_iff.mp found
      by_contra absent
      rw [Table.position?_eq_none_iff.mpr absent] at present
      cases present

/-- Rows whose keys in one column are found unique are apart in it. -/
theorem apart_of_areUnique {position : Nat} (unique : relation.areUnique [position] = true) :
    Apart relation.schema relation.rows position := by
  simp only [areUnique, decide_eq_true_eq, List.Nodup, List.pairwise_filterMap] at unique
  refine unique.imp fun {first second} differ key firstKey secondKey => ?_
  refine differ [key] ?_ [key] ?_ rfl
  · simp [firstKey]
  · simp [secondKey]

theorem addIndex_wellFormed {positions : List Nat} (wellFormed : relation.WellFormed)
    (located : index.columns.mapM relation.schema.position = .ok positions)
    (free : index.unique = true → relation.areUnique positions = true) :
    (relation.alter (relation.schema.addIndex index)).WellFormed := by
  refine alter_wellFormed wellFormed rfl ?_ ?_
  · intro other member
    rcases List.mem_append.mp member with former | added
    · exact wellFormed.indexColumns other former
    · rw [List.mem_singleton.mp added]
      exact forall_mem_of_mapM located
  · intro position unique
    rcases Table.mem_uniqueColumns.mp unique with declared | ⟨other, member, name, named, found⟩
    · exact wellFormed.keysDistinct position (Table.mem_uniqueColumns.mpr (.inl declared))
    · rcases List.mem_append.mp member with former | added
      · exact wellFormed.keysDistinct position
          (Table.mem_uniqueColumns.mpr (.inr ⟨other, former, name, named, found⟩))
      · rw [List.mem_singleton.mp added, Table.uniqueColumnOf?_eq_some_iff] at named
        obtain ⟨isUnique, columns⟩ := named
        have single : positions = [position] := by
          have present := Table.position_eq_ok_iff.mpr found
          rw [columns] at located
          change relation.schema.position name = _ at present
          simp only [List.mapM_cons, present, List.mapM_nil, bind, Except.bind, pure, Except.pure,
            Except.ok.injEq] at located
          exact located.symm
        have unique := free isUnique
        rw [single] at unique
        exact apart_of_areUnique unique

/-- Rows are replaced one after another, up to the last. -/
theorem updateFrom_exists {rest : List Row} (stored : relation.rows = before ++ rest)
    (same : rows.length = rest.length) :
    ∃ after, relation.updateFrom before.length rows = .ok after ∧
      after.schema = relation.schema ∧ after.rows = before ++ rows ∧
      (relation.Indexed → after.Indexed) := by
  induction rows generalizing relation before rest with
  | nil =>
      have done : rest = [] := List.eq_nil_of_length_eq_zero same.symm
      exact ⟨relation, rfl, rfl, by rw [stored, done], id⟩
  | cons row rows ih =>
      obtain ⟨former, rest, rfl⟩ : ∃ former tail, rest = former :: tail :=
        List.exists_cons_of_length_eq_add_one same.symm
      have within : before.length < relation.rows.length := by simp [stored]
      obtain ⟨next, updated⟩ := update_exists row within
      have nextRows : next.rows = (before ++ [row]) ++ rest := by
        rw [rows_update updated, stored]
        simp
      obtain ⟨after, run, sameSchema, written, indexed⟩ :=
        ih nextRows (Nat.succ.inj same)
      refine ⟨after, ?_, ?_, ?_, ?_⟩
      · simp only [updateFrom, bind_eq_ok_iff]
        exact ⟨next, updated, by simpa using run⟩
      · rw [sameSchema, schema_update updated]
      · simpa using written
      · exact fun before => indexed (update_indexed before updated)

theorem rewrite_exists (relation : Relation) (schema : Table) (change : Row → Row) :
    ∃ after, relation.rewrite schema change = .ok after ∧ after.schema = schema ∧
      after.rows = relation.rows.map change ∧ after.Indexed := by
  obtain ⟨after, run, sameSchema, written, indexed⟩ :=
    updateFrom_exists (show (relation.alter schema).rows = [] ++ relation.rows from rfl)
      (List.length_map change)
  exact ⟨after, run, sameSchema, written, indexed build_indexed⟩

theorem rewrite_spec {change : Row → Row} (rewritten : relation.rewrite schema change = .ok after) :
    after.schema = schema ∧ after.rows = relation.rows.map change ∧ after.Indexed := by
  obtain ⟨found, run, spec⟩ := rewrite_exists relation schema change
  cases rewritten.symm.trans run
  exact spec

end Relation

namespace Table

variable {table : Table} {column : Column} {row : Row} {value : Value} {source target : String}

theorem columnNames_addColumn :
    (table.addColumn column).columnNames = table.columnNames ++ [column.name] := by
  simp [addColumn, columnNames]

theorem columns_set (absent : column.name ∉ table.columnNames)
    (columns : row.columns = table.columnNames) :
    (row.set column.name value).columns = (table.addColumn column).columnNames := by
  rw [Row.set_of_absent (columns ▸ absent), columnNames_addColumn, ← columns]
  simp [Row.columns]

section

variable (distinct : (table.addColumn column).columnNames.Nodup)
include distinct

theorem absent_of_addColumn : column.name ∉ table.columnNames := by
  rw [columnNames_addColumn] at distinct
  exact fun member => (List.nodup_append.mp distinct).2.2 _ member _ (by simp) rfl

theorem tuple_addColumn (columns : row.columns = table.columnNames) :
    (table.addColumn column).tuple (row.set column.name value) = table.tuple row ++ [value] := by
  have absent := absent_of_addColumn distinct
  have former : table.columnNames.Nodup := by
    rw [columnNames_addColumn] at distinct
    exact (List.nodup_append.mp distinct).1
  rw [tuple_eq_values (columns_set absent columns) distinct, tuple_eq_values columns former,
    Row.set_of_absent (columns ▸ absent)]
  simp [Row.values]

theorem holds_addColumn (held : table.Holds row)
    (allowed : column.checkValue table.name value = .ok ()) :
    (table.addColumn column).Holds (row.set column.name value) := by
  refine ⟨columns_set (absent_of_addColumn distinct) held.columns, ?_⟩
  obtain ⟨sameLength, values⟩ := checkTuple_eq_ok_iff.mp held.values
  rw [tuple_addColumn distinct held.columns, checkTuple_eq_ok_iff]
  refine ⟨by simp [addColumn, sameLength], ?_⟩
  rw [addColumn, List.zip_append sameLength.symm]
  intro pair member
  rcases List.mem_append.mp member with former | added
  · exact values pair former
  · rw [List.zip_cons_cons, List.zip_nil_left, List.mem_singleton] at added
    rw [added]
    exact allowed

end

theorem declaredUnique_addColumn {position : Nat}
    (plain : column.primaryKey = false ∧ column.unique = false)
    (declared : position ∈ (table.addColumn column).declaredUnique) :
    position ∈ table.declaredUnique := by
  obtain ⟨other, found, unique⟩ := mem_declaredUnique.mp declared
  refine mem_declaredUnique.mpr ⟨other, ?_, unique⟩
  rw [addColumn, List.getElem?_append] at found
  split at found
  · exact found
  · cases List.mem_singleton.mp (List.mem_of_getElem? found)
    rw [plain.1, plain.2] at unique
    simp at unique

/-- A column of no special kind makes none unique. -/
theorem uniqueColumns_addColumn {position : Nat}
    (distinct : (table.addColumn column).columnNames.Nodup)
    (indexColumns : ∀ index ∈ table.indexes, ∀ column ∈ index.columns, column ∈ table.columnNames)
    (plain : column.primaryKey = false ∧ column.unique = false)
    (unique : position ∈ (table.addColumn column).uniqueColumns) :
    position ∈ table.uniqueColumns := by
  rcases mem_uniqueColumns.mp unique with declared | ⟨index, member, name, named, found⟩
  · exact mem_uniqueColumns.mpr (.inl (declaredUnique_addColumn plain declared))
  · refine mem_uniqueColumns.mpr (.inr ⟨index, member, name, named, ?_⟩)
    have present : name ∈ table.columnNames :=
      indexColumns index member name (by rw [(uniqueColumnOf?_eq_some_iff.mp named).2]; simp)
    have former : table.columnNames.Nodup := by
      rw [columnNames_addColumn] at distinct
      exact (List.nodup_append.mp distinct).1
    rw [position?_eq_some_iff distinct, columnNames_addColumn] at found
    rw [position?_eq_some_iff former]
    rw [List.getElem?_append] at found
    split at found
    · exact found
    · cases List.mem_singleton.mp (List.mem_of_getElem? found)
      exact absurd present (absent_of_addColumn distinct)

theorem columnNames_renameColumn :
    (table.renameColumn source target).columnNames =
      table.columnNames.map (renamed source target) := by
  simp [renameColumn, columnNames, Function.comp_def]

theorem renamed_injective (fresh : target ∉ table.columnNames) {first second : String}
    (firstMember : first ∈ table.columnNames) (secondMember : second ∈ table.columnNames)
    (same : renamed source target first = renamed source target second) : first = second := by
  simp only [renamed] at same
  split at same <;> split at same
  · rename_i left right
    exact left.trans right.symm
  · exact absurd (same ▸ secondMember) fresh
  · exact absurd (same ▸ firstMember) fresh
  · exact same

theorem renameColumn_distinct (fresh : target ∉ table.columnNames)
    (distinct : table.columnNames.Nodup) :
    (table.renameColumn source target).columnNames.Nodup := by
  rw [columnNames_renameColumn]
  exact List.Nodup.map_on (fun first firstMember second secondMember same =>
    renamed_injective fresh firstMember secondMember same) distinct

theorem columns_renameRow (distinct : table.columnNames.Nodup)
    (columns : row.columns = table.columnNames) :
    (row.rename source target).columns = (table.renameColumn source target).columnNames := by
  rw [Row.columns_rename source target (columns ▸ distinct), columns, columnNames_renameColumn]
  rfl

/-- The values of a row stay as they are when a column is renamed. -/
theorem tuple_renameColumn (fresh : target ∉ table.columnNames)
    (distinct : table.columnNames.Nodup) (columns : row.columns = table.columnNames) :
    (table.renameColumn source target).tuple (row.rename source target) = table.tuple row := by
  rw [tuple_eq_values (columns_renameRow distinct columns) (renameColumn_distinct fresh distinct),
    Row.values_rename, tuple_eq_values columns distinct]

theorem renameColumn_check (fresh : target ∉ table.columnNames) (valid : table.check = .ok ()) :
    (table.renameColumn source target).check = .ok () := by
  obtain ⟨single, distinct, columns⟩ := check_eq_ok_iff.mp valid
  refine check_eq_ok_iff.mpr ⟨?_, renameColumn_distinct fresh distinct, ?_⟩
  · rw [← single, renameColumn, List.countP_map]
    rfl
  · intro column member
    obtain ⟨former, listed, rfl⟩ := List.mem_map.mp member
    have checked := columns former listed
    rw [Column.check_eq_ok_iff] at checked ⊢
    exact checked

theorem holds_renameColumn (fresh : target ∉ table.columnNames)
    (distinct : table.columnNames.Nodup) (held : table.Holds row) :
    (table.renameColumn source target).Holds (row.rename source target) := by
  refine ⟨columns_renameRow distinct held.columns, ?_⟩
  obtain ⟨sameLength, values⟩ := checkTuple_eq_ok_iff.mp held.values
  rw [tuple_renameColumn fresh distinct held.columns, checkTuple_eq_ok_iff]
  refine ⟨by simp [renameColumn, sameLength], ?_⟩
  rw [renameColumn, List.zip_map_left]
  intro pair member
  obtain ⟨former, listed, rfl⟩ := List.mem_map.mp member
  have checked := values former listed
  rw [Column.checkValue_eq_ok_iff] at checked ⊢
  exact checked

theorem uniqueColumns_renameColumn {position : Nat} (fresh : target ∉ table.columnNames)
    (distinct : table.columnNames.Nodup)
    (indexColumns : ∀ index ∈ table.indexes, ∀ column ∈ index.columns, column ∈ table.columnNames)
    (unique : position ∈ (table.renameColumn source target).uniqueColumns) :
    position ∈ table.uniqueColumns := by
  rcases mem_uniqueColumns.mp unique with declared | ⟨index, member, name, named, found⟩
  · obtain ⟨column, found, isUnique⟩ := mem_declaredUnique.mp declared
    rw [renameColumn, List.getElem?_map, Option.map_eq_some_iff] at found
    obtain ⟨former, found, rfl⟩ := found
    exact mem_uniqueColumns.mpr (.inl (mem_declaredUnique.mpr ⟨former, found, isUnique⟩))
  · obtain ⟨former, listed, rfl⟩ := List.mem_map.mp member
    obtain ⟨isUnique, columns⟩ := uniqueColumnOf?_eq_some_iff.mp named
    obtain ⟨formerName, formerColumns, rfl⟩ := List.map_eq_singleton_iff.mp columns
    refine mem_uniqueColumns.mpr (.inr ⟨former, listed, formerName,
      uniqueColumnOf?_eq_some_iff.mpr ⟨isUnique, formerColumns⟩, ?_⟩)
    rw [position?_eq_some_iff (renameColumn_distinct fresh distinct), columnNames_renameColumn,
      List.getElem?_map, Option.map_eq_some_iff] at found
    obtain ⟨other, found, same⟩ := found
    have equal := renamed_injective fresh (List.mem_of_getElem? found)
      (indexColumns former listed formerName (by simp [formerColumns])) same
    rw [position?_eq_some_iff distinct, found, equal]

end Table

namespace Relation

variable {relation after : Relation} {column : Column} {value : Value} {source target : String}

/-- Rows that keep their keys stay apart. -/
theorem Apart.map {schema other : Table} {rows : List Row} {position : Nat} {change : Row → Row}
    (apart : Apart schema rows position)
    (same : ∀ row ∈ rows, keyOf other (change row) position = keyOf schema row position) :
    Apart other (rows.map change) position := by
  rw [Apart, List.pairwise_map]
  refine List.Pairwise.imp_of_mem ?_ apart
  intro first second firstMember secondMember differ key
  rw [same first firstMember, same second secondMember]
  exact differ key

theorem addColumn_wellFormed (wellFormed : relation.WellFormed)
    (plain : column.primaryKey = false ∧ column.unique = false)
    (allowed : relation.rows ≠ [] → column.checkValue relation.schema.name value = .ok ())
    (valid : (relation.schema.addColumn column).check = .ok ())
    (rewritten : relation.rewrite (relation.schema.addColumn column)
      (fun row => row.set column.name value) = .ok after) :
    after.schema = relation.schema.addColumn column ∧ after.WellFormed := by
  obtain ⟨sameSchema, rows, indexed⟩ := rewrite_spec rewritten
  have distinct := Table.columnNames_nodup valid
  have absent := Table.absent_of_addColumn distinct
  refine ⟨sameSchema, ?_, ?_, ?_, ?_, indexed⟩
  · rw [sameSchema]
    exact valid
  · rw [sameSchema, Table.columnNames_addColumn]
    exact fun index member name listed =>
      List.mem_append_left _ (wellFormed.indexColumns index member name listed)
  · rw [sameSchema, rows]
    intro row member
    obtain ⟨former, listed, rfl⟩ := List.mem_map.mp member
    exact Table.holds_addColumn distinct (wellFormed.rowsHeld former listed)
      (allowed (List.ne_nil_of_mem listed))
  · rw [sameSchema, rows]
    intro position unique
    have formerly :=
      Table.uniqueColumns_addColumn distinct wellFormed.indexColumns plain unique
    have within := Table.lt_of_mem_uniqueColumns wellFormed.distinct formerly
    refine (wellFormed.keysDistinct position formerly).map fun row member => ?_
    rw [keyOf, keyOf, Table.tuple_addColumn distinct (wellFormed.rowsHeld row member).columns,
      List.getElem?_append_left (by rwa [Table.length_tuple])]

theorem renameColumn_wellFormed (wellFormed : relation.WellFormed)
    (fresh : target ∉ relation.schema.columnNames)
    (rewritten : relation.rewrite (relation.schema.renameColumn source target)
      (fun row => row.rename source target) = .ok after) :
    after.schema = relation.schema.renameColumn source target ∧ after.WellFormed := by
  obtain ⟨sameSchema, rows, indexed⟩ := rewrite_spec rewritten
  refine ⟨sameSchema, ?_, ?_, ?_, ?_, indexed⟩
  · rw [sameSchema]
    exact Table.renameColumn_check fresh wellFormed.schemaValid
  · rw [sameSchema, Table.columnNames_renameColumn]
    intro index member name listed
    obtain ⟨former, formerListed, rfl⟩ := List.mem_map.mp member
    obtain ⟨formerName, nameListed, rfl⟩ := List.mem_map.mp listed
    exact List.mem_map_of_mem (wellFormed.indexColumns former formerListed formerName nameListed)
  · rw [sameSchema, rows]
    intro row member
    obtain ⟨former, listed, rfl⟩ := List.mem_map.mp member
    exact Table.holds_renameColumn fresh wellFormed.distinct (wellFormed.rowsHeld former listed)
  · rw [sameSchema, rows]
    intro position unique
    have formerly := Table.uniqueColumns_renameColumn fresh wellFormed.distinct
      wellFormed.indexColumns unique
    refine (wellFormed.keysDistinct position formerly).map fun row member => ?_
    rw [keyOf, keyOf, Table.tuple_renameColumn fresh wellFormed.distinct
      (wellFormed.rowsHeld row member).columns]

end Relation

end Coffer
