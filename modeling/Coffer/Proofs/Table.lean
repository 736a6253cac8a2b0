import Coffer.Proofs.Result
import Coffer.Schema.Table

namespace Coffer

/-! # Rows in a schema

What a schema that passes its check is like, and how rows are laid out in one.
-/

namespace Row

variable {row : Row} {column : String} {value : Value} {fields : List (String × Value)}

theorem setField_of_absent (absent : column ∉ fields.map Prod.fst) :
    setField column value fields = fields ++ [(column, value)] := by
  induction fields with
  | nil => rfl
  | cons field rest ih =>
      simp only [List.map_cons, List.mem_cons, not_or] at absent
      simp only [setField, if_neg (Ne.symm absent.1), ih absent.2, List.cons_append]

theorem set_of_absent (absent : column ∉ row.columns) :
    row.set column value = ⟨row.fields ++ [(column, value)]⟩ := by
  simp only [set, setField_of_absent absent]

theorem foldl_set (distinct : (row.columns ++ fields.map Prod.fst).Nodup) :
    fields.foldl (fun row field => row.set field.1 field.2) row = ⟨row.fields ++ fields⟩ := by
  induction fields generalizing row with
  | nil => simp
  | cons field rest ih =>
      have absent : field.1 ∉ row.columns := fun member =>
        (List.nodup_append.mp distinct).2.2 _ member _ (by simp) rfl
      rw [List.foldl_cons, set_of_absent absent, ih]
      · simp
      · simpa [columns] using distinct

/-- Fields of different names are set one behind the other. -/
theorem ofFields_of_distinct (distinct : (fields.map Prod.fst).Nodup) :
    ofFields fields = ⟨fields⟩ := by
  rw [ofFields, foldl_set (by simpa [columns, empty] using distinct)]
  simp [empty]

theorem get?_of_mem (distinct : row.columns.Nodup) (member : (column, value) ∈ row.fields) :
    row.get? column = some value := by
  obtain ⟨fields⟩ := row
  induction fields with
  | nil => simp at member
  | cons field rest ih =>
      simp only [columns, List.map_cons, List.nodup_cons] at distinct
      rcases List.mem_cons.mp member with rfl | member
      · simp [get?]
      · have different : field.1 ≠ column := fun same =>
          distinct.1 (List.mem_map.mpr ⟨_, member, same.symm⟩)
        simpa [get?, List.find?_cons, different] using ih distinct.2 member

/-- The values of a row are those of its columns. -/
theorem values_eq_map_get? (distinct : row.columns.Nodup) :
    row.columns.map (fun column => (row.get? column).getD .null) = row.values := by
  simp only [columns, values, List.map_map]
  apply List.map_congr_left
  intro field member
  simp [get?_of_mem distinct member]

theorem columns_rename (source target : String) (distinct : row.columns.Nodup) :
    (row.rename source target).columns =
      row.columns.map fun column => if column = source then target else column := by
  obtain ⟨fields⟩ := row
  simp only [columns, rename]
  induction fields with
  | nil => rfl
  | cons field rest ih =>
      simp only [columns, List.map_cons, List.nodup_cons] at distinct
      simp only [renameField]
      split
      · rename_i same
        have untouched : ∀ column ∈ rest.map Prod.fst,
            (if column = source then target else column) = id column := by
          intro column member
          exact if_neg fun renamed => distinct.1 (by rwa [same, ← renamed])
        simp only [List.map_cons, same, if_true, List.cons.injEq, true_and]
        rw [List.map_congr_left untouched, List.map_id]
      · rename_i different
        have rest := ih distinct.2
        simp only [List.map_cons, if_neg different, rest]

theorem values_rename (source target : String) :
    (row.rename source target).values = row.values := by
  obtain ⟨fields⟩ := row
  simp only [values, rename]
  induction fields with
  | nil => rfl
  | cons field rest ih =>
      simp only [renameField]
      split
      · rfl
      · simp only [List.map_cons, ih]

end Row

namespace Column

variable {column : Column} {table : String} {value : Value}

theorem check_eq_ok_iff :
    column.check table = .ok () ↔
      (column.primaryKey = true → column.nullable = false) ∧
      (column.autoincrement = true → column.primaryKey = true ∧ column.type = .integer) ∧
      (column.default = some .null → column.nullable = true) := by
  simp only [check, guarded_eq_ok_iff, refused_eq_ok_iff]
  cases column.primaryKey <;> cases column.nullable <;> cases column.autoincrement <;>
    simp [pure, Except.pure]

theorem checkValue_eq_ok_iff :
    column.checkValue table value = .ok () ↔
      (value = .null → column.nullable = true) ∧ ∀ x, value = .real x → x.isFinite = true := by
  simp only [checkValue, guarded_eq_ok_iff]
  cases value <;> cases column.nullable <;>
    simp [Value.isNull, pure, Except.pure, throw, throwThe, MonadExceptOf.throw]

end Column

namespace Table

variable {table : Table} {row : Row} {tuple : List Value}

theorem checkColumns_eq_ok_iff {name : String} {earlier : List String} {columns : List Column} :
    checkColumns name earlier columns = .ok () ↔
      (∀ column ∈ columns, column.name ∉ earlier) ∧ (columns.map Column.name).Nodup ∧
      ∀ column ∈ columns, column.check name = .ok () := by
  induction columns generalizing earlier with
  | nil => simp [checkColumns]
  | cons column rest ih =>
      simp only [checkColumns, guarded_eq_ok_iff, bind_eq_ok_iff, ih, List.mem_cons,
        List.contains_eq_mem, decide_eq_true_eq, not_or, List.map_cons, List.nodup_cons,
        List.mem_map]
      constructor
      · rintro ⟨fresh, _, checked, apart, distinct, valid⟩
        refine ⟨?_, ⟨?_, distinct⟩, ?_⟩
        · rintro other (rfl | member)
          · exact fresh
          · exact (apart other member).2
        · rintro ⟨other, member, same⟩
          exact (apart other member).1 same
        · rintro other (rfl | member)
          · exact checked
          · exact valid other member
      · rintro ⟨fresh, ⟨apart, distinct⟩, valid⟩
        exact ⟨fresh column (.inl rfl), (), valid column (.inl rfl),
          fun other member => ⟨fun same => apart ⟨other, member, same⟩, fresh other (.inr member)⟩,
          distinct, fun other member => valid other (.inr member)⟩

theorem check_eq_ok_iff :
    table.check = .ok () ↔
      table.columns.countP Column.primaryKey = 1 ∧ table.columnNames.Nodup ∧
      ∀ column ∈ table.columns, column.check table.name = .ok () := by
  simp only [check, guarded_eq_ok_iff]
  constructor
  · rintro ⟨-, checked⟩
    split at checked
    · cases checked
    · rename_i single
      obtain ⟨-, distinct, valid⟩ := checkColumns_eq_ok_iff.mp checked
      exact ⟨single, distinct, valid⟩
    · cases checked
  · rintro ⟨single, distinct, valid⟩
    refine ⟨?_, ?_⟩
    · cases columns : table.columns <;> simp [columns] at single ⊢
    · simp only [single]
      exact checkColumns_eq_ok_iff.mpr ⟨by simp, distinct, valid⟩

theorem columnNames_nodup (checked : table.check = .ok ()) : table.columnNames.Nodup :=
  (check_eq_ok_iff.mp checked).2.1

theorem length_columnNames : table.columnNames.length = table.columns.length := by
  simp [columnNames]

theorem length_tuple : (table.tuple row).length = table.columns.length := by
  simp [tuple, columnNames]

theorem checkValues_eq_ok_iff {name : String} {columns : List Column} {tuple : List Value} :
    checkValues name columns tuple = .ok () ↔
      ∀ pair ∈ columns.zip tuple, pair.1.checkValue name pair.2 = .ok () := by
  induction columns generalizing tuple with
  | nil => simp [checkValues]
  | cons column rest ih =>
      cases tuple with
      | nil => simp [checkValues]
      | cons value values =>
          simp only [checkValues, bind_eq_ok_iff, List.zip_cons_cons, List.forall_mem_cons, ih]
          exact ⟨fun ⟨_, checked, valid⟩ => ⟨checked, valid⟩,
            fun ⟨checked, valid⟩ => ⟨(), checked, valid⟩⟩

theorem checkTuple_eq_ok_iff :
    table.checkTuple tuple = .ok () ↔
      tuple.length = table.columns.length ∧
      ∀ pair ∈ table.columns.zip tuple, pair.1.checkValue table.name pair.2 = .ok () := by
  simp only [checkTuple, guarded_eq_ok_iff, Decidable.not_not, checkValues_eq_ok_iff]

theorem length_of_checkTuple (checked : table.checkTuple tuple = .ok ()) :
    tuple.length = table.columns.length :=
  (checkTuple_eq_ok_iff.mp checked).1

/-- A row that a table can hold: it has the columns of the schema, in their order, and the
values pass the check. -/
structure Holds (table : Table) (row : Row) : Prop where
  columns : row.columns = table.columnNames
  values : table.checkTuple (table.tuple row) = .ok ()

theorem tuple_eq_values (columns : row.columns = table.columnNames)
    (distinct : table.columnNames.Nodup) : table.tuple row = row.values := by
  rw [tuple, ← columns]
  exact Row.values_eq_map_get? (columns ▸ distinct)

section

variable (distinct : table.columnNames.Nodup) (same : tuple.length = table.columns.length)
include distinct same

theorem fields_row : (table.row tuple).fields = table.columnNames.zip tuple := by
  rw [Table.row, Row.ofFields_of_distinct]
  rwa [List.map_fst_zip (Nat.le_of_eq (by rw [length_columnNames, same]))]

theorem columns_row : (table.row tuple).columns = table.columnNames := by
  rw [Row.columns, fields_row distinct same,
    List.map_fst_zip (Nat.le_of_eq (by rw [length_columnNames, same]))]

theorem values_row : (table.row tuple).values = tuple := by
  rw [Row.values, fields_row distinct same,
    List.map_snd_zip (Nat.le_of_eq (by rw [length_columnNames, same]))]

theorem tuple_row : table.tuple (table.row tuple) = tuple :=
  (tuple_eq_values (columns_row distinct same) distinct).trans (values_row distinct same)

end

theorem row_tuple (columns : row.columns = table.columnNames)
    (distinct : table.columnNames.Nodup) : table.row (table.tuple row) = row := by
  have values := tuple_eq_values columns distinct
  have fields : (table.row (table.tuple row)).fields = table.columnNames.zip (table.tuple row) :=
    fields_row distinct length_tuple
  have zipped : row.fields = (row.fields.map Prod.fst).zip (row.fields.map Prod.snd) :=
    List.zip_of_prod rfl rfl
  rw [values, ← columns, Row.columns, Row.values, ← zipped] at fields
  rw [values, Row.values]
  cases row
  exact congrArg Row.mk fields

/-- The row of a tuple that passes the check is one that the table can hold. -/
theorem holds_row (distinct : table.columnNames.Nodup)
    (checked : table.checkTuple tuple = .ok ()) : table.Holds (table.row tuple) := by
  have same := length_of_checkTuple checked
  exact ⟨columns_row distinct same, by rwa [tuple_row distinct same]⟩

section

variable {column : String} {index : Index} {position : Nat}

theorem position?_eq_none_iff : table.position? column = none ↔ column ∉ table.columnNames :=
  List.idxOf?_eq_none_iff

theorem position?_eq_some_iff (distinct : table.columnNames.Nodup) :
    table.position? column = some position ↔ table.columnNames[position]? = some column := by
  rw [position?, List.idxOf?_eq_some_iff, List.getElem?_eq_some_iff]
  constructor
  · rintro ⟨within, found, -⟩
    exact ⟨within, found⟩
  · rintro ⟨within, rfl⟩
    refine ⟨within, rfl, fun earlier before => ?_⟩
    have apart := (List.pairwise_iff_getElem.mp distinct) earlier position
      (Nat.lt_trans before within) within before
    simpa using apart

theorem position_eq_ok_iff :
    table.position column = .ok position ↔ table.position? column = some position := by
  rw [Table.position]
  cases table.position? column <;> simp

theorem uniqueColumnOf?_eq_some_iff :
    uniqueColumnOf? index = some column ↔ index.unique = true ∧ index.columns = [column] := by
  rw [uniqueColumnOf?]
  split
  · rename_i found unique columns
    simp [unique, columns]
  · rename_i other
    simp only [reduceCtorEq, false_iff, not_and]
    exact fun unique columns => other column unique columns

theorem mem_foldl_distinct {found others : List Nat} :
    position ∈ others.foldl
        (fun found other => if found.contains other then found else found ++ [other]) found ↔
      position ∈ found ∨ position ∈ others := by
  induction others generalizing found with
  | nil => simp
  | cons other rest ih =>
      rw [List.foldl_cons, ih]
      split
      · rename_i present
        have present : other ∈ found := by simpa using present
        simp only [List.mem_cons]
        constructor
        · rintro (before | later)
          · exact .inl before
          · exact .inr (.inr later)
        · rintro (before | rfl | later)
          · exact .inl before
          · exact .inl present
          · exact .inr later
      · simp [or_assoc]

theorem mem_declaredUnique :
    position ∈ table.declaredUnique ↔
      ∃ column, table.columns[position]? = some column ∧
        (column.primaryKey = true ∨ column.unique = true) := by
  simp only [declaredUnique, List.mem_filter, List.mem_range, Option.any_eq_true, Bool.or_eq_true]
  constructor
  · exact fun found => found.2
  · rintro ⟨column, found, unique⟩
    exact ⟨(List.getElem?_eq_some_iff.mp found).1, column, found, unique⟩

/-- A column is unique by its declaration or by an index over it alone. -/
theorem mem_uniqueColumns :
    position ∈ table.uniqueColumns ↔
      position ∈ table.declaredUnique ∨
        ∃ index ∈ table.indexes, ∃ column, uniqueColumnOf? index = some column ∧
          table.position? column = some position := by
  rw [uniqueColumns, mem_foldl_distinct]
  simp only [List.mem_filterMap, Option.bind_eq_some_iff]

theorem lt_of_mem_uniqueColumns (distinct : table.columnNames.Nodup)
    (unique : position ∈ table.uniqueColumns) : position < table.columns.length := by
  rcases mem_uniqueColumns.mp unique with declared | ⟨index, -, column, -, found⟩
  · obtain ⟨column, found, -⟩ := mem_declaredUnique.mp declared
    exact (List.getElem?_eq_some_iff.mp found).1
  · have named := (position?_eq_some_iff distinct).mp found
    rw [← length_columnNames]
    exact (List.getElem?_eq_some_iff.mp named).1

end

end Table

end Coffer
