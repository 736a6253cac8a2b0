import Coffer.Proofs.Directory
import Coffer.Proofs.JsonContent
import Coffer.Proofs.Relation
import Coffer.Snapshot.State

namespace Coffer

/-! # States in documents

The document of a state is read as the state, but for defaults of columns that are written as
null, which are read as no defaults.
-/

open Json (Readable)

namespace Value

variable {value : Value} {default : Option Value}

/-- Whether a value is written as something else than null. -/
def isKept : Value → Bool
  | .null => false
  | .real x => x.isFinite
  | _ => true

/-- A finite real that is written as a number is read as itself. -/
def ReadsBack : Value → Prop
  | .real x => x.isFinite = true →
      Json.numberOf? (Bytes.ofText (RealLayout.document.text x)) = some (.real x)
  | _ => True

instance : Decidable value.ReadsBack :=
  match value with
  | .real _ => inferInstanceAs (Decidable (_ → _))
  | .null => isTrue trivial
  | .integer _ => isTrue trivial
  | .text _ => isTrue trivial

theorem readable_toJson : Readable value.toJson := by
  cases value with
  | null => exact .null
  | integer number => exact Json.readable_ofInt number.toInt
  | real x => exact Json.readable_ofReal x
  | text content => exact .string content

theorem ofJson?_integer {number : Int64} :
    ofJson? (Value.integer number).toJson = some (.integer number) := by
  have high : number.toInt < Nat.pow 2 63 := number.toInt_lt
  rw [toJson, Json.ofInt, ofJson?, Json.numberOf?_integer]
  by_cases nonnegative : 0 ≤ number.toInt
  · have fits : number.toInt.toNat < Nat.pow 2 63 := by omega
    simp only [nonnegative, if_true, Option.map_some, if_pos fits,
      Int.toNat_of_nonneg nonnegative, Int64.ofInt_toInt]
  · simp only [nonnegative, if_false, Option.map_some]

theorem ofJson?_toJson (kept : value.isKept = true) (reads : value.ReadsBack) :
    ofJson? value.toJson = some value := by
  cases value with
  | null => cases kept
  | integer number => exact ofJson?_integer
  | real x =>
      have finite : x.isFinite = true := kept
      have number : Json.numberOf? (Bytes.ofText (RealLayout.document.text x)) = some (.real x) :=
        reads finite
      rw [toJson, Json.ofReal, if_pos finite, ofJson?, number]
      rfl
  | text content =>
      rw [toJson, Json.ofText, ofJson?, Json.textOf?_spelled]
      rfl

theorem toJson_eq_null_iff : value.toJson = .null ↔ value.isKept = false := by
  cases value with
  | null => simp [toJson, isKept]
  | integer number => simp [toJson, Json.ofInt, isKept]
  | real x => cases finite : x.isFinite <;> simp [toJson, Json.ofReal, isKept, finite]
  | text content => simp [toJson, Json.ofText, isKept]

/-- A default that is written as null is read as none. -/
theorem option?_toJson (reads : ∀ value ∈ default, value.ReadsBack) :
    Json.option? ofJson? (.ofOption toJson default) = some (default.filter isKept) := by
  cases default with
  | none => rfl
  | some value =>
      rw [Json.ofOption]
      cases kept : value.isKept with
      | false =>
          rw [toJson_eq_null_iff.mpr kept, Option.filter_some, kept]
          rfl
      | true =>
          have present : value.toJson ≠ .null := by
            rw [ne_eq, toJson_eq_null_iff, kept]
            simp
          rw [Json.option?_of_ne_null present, ofJson?_toJson kept (reads value rfl),
            Option.filter_some, kept]
          rfl

end Value

theorem ColumnType.ofJson?_word (type : ColumnType) :
    ColumnType.ofJson? (.ofText type.word) = some type := by
  rw [ColumnType.ofJson?, Json.word?_ofText]
  cases type <;> decide

namespace Column

variable {column : Column}

/-- The column as it is read from its document. -/
def kept (column : Column) : Column :=
  { column with default := column.default.filter Value.isKept }

theorem kept_eq_iff : column.kept = column ↔ ∀ value ∈ column.default, value.isKept = true := by
  obtain ⟨name, type, primaryKey, autoincrement, nullable, default, unique, references⟩ := column
  simp only [kept, mk.injEq, true_and, and_true]
  cases default with
  | none => simp
  | some value => simp [Option.filter_some]

theorem readable_toJson : Readable column.toJson := by
  refine Json.readable_ofMembers ?_
  simp only [List.forall_mem_cons, List.not_mem_nil, false_imp_iff, implies_true, and_true]
  exact ⟨.string _, .string _, .boolean _, .boolean _, .boolean _,
    Json.readable_ofOption fun _ => Value.readable_toJson, .boolean _,
    Json.readable_ofOption fun _ => .string _⟩

theorem ofJson?_toJson (reads : ∀ value ∈ column.default, value.ReadsBack) :
    ofJson? column.toJson = some column.kept := by
  rw [ofJson?, toJson, Json.Record.ofJson?_ofMembers]
  · simp [Json.Record.required, Json.Record.optional, Json.boolean?, List.lookup_cons,
      ColumnType.ofJson?_word, Value.option?_toJson reads, Json.option?_ofText, kept]
  · rfl
  · decide

end Column

namespace Index

variable {index : Index}

theorem readable_toJson : Readable index.toJson := by
  refine Json.readable_ofMembers ?_
  simp only [List.forall_mem_cons, List.not_mem_nil, false_imp_iff, implies_true, and_true]
  exact ⟨.string _, Json.readable_ofList fun _ => .string _, .boolean _⟩

theorem ofJson?_toJson : ofJson? index.toJson = some index := by
  rw [ofJson?, toJson, Json.Record.ofJson?_ofMembers]
  · simp [Json.Record.required, Json.boolean?, List.lookup_cons, Json.list?_ofText]
  · rfl
  · decide

end Index

namespace Table

variable {table : Table}

/-- The schema as it is read from its document. -/
def kept (table : Table) : Table :=
  { table with columns := table.columns.map Column.kept }

theorem kept_eq_iff :
    table.kept = table ↔
      ∀ column ∈ table.columns, ∀ value ∈ column.default, value.isKept = true := by
  obtain ⟨name, columns, indexes⟩ := table
  simp only [kept, mk.injEq, true_and, and_true, ← Column.kept_eq_iff]
  have same : columns.map Column.kept = columns.map id ↔ ∀ column ∈ columns, column.kept = column :=
    List.map_inj_left
  rwa [List.map_id] at same

theorem readable_toJson : Readable table.toJson := by
  refine Json.readable_ofMembers ?_
  simp only [List.forall_mem_cons, List.not_mem_nil, false_imp_iff, implies_true, and_true]
  exact ⟨.string _, Json.readable_ofList fun _ => Column.readable_toJson,
    Json.readable_ofList fun _ => Index.readable_toJson⟩

theorem ofJson?_toJson
    (reads : ∀ column ∈ table.columns, ∀ value ∈ column.default, value.ReadsBack) :
    ofJson? table.toJson = some table.kept := by
  have columns : Json.list? Column.ofJson? (.ofList Column.toJson table.columns) =
      some (table.columns.map Column.kept) :=
    Json.list?_ofList fun column member => Column.ofJson?_toJson (reads column member)
  have indexes : Json.list? Index.ofJson? (.ofList Index.toJson table.indexes) =
      some (table.indexes.map id) :=
    Json.list?_ofList fun index _ => Index.ofJson?_toJson
  rw [List.map_id] at indexes
  rw [ofJson?, toJson, Json.Record.ofJson?_ofMembers]
  · simp [Json.Record.required, Json.Record.orElse, List.lookup_cons, columns, indexes, kept]
  · rfl
  · decide

end Table

namespace Row

variable {row : Row}

theorem readable_toJson : Readable row.toJson := by
  refine Json.readable_ofMembers fun member among => ?_
  obtain ⟨field, -, rfl⟩ := List.mem_map.mp among
  exact Value.readable_toJson

/-- A null in a row is read as null, unlike one in a default. -/
theorem ofJson?_toJson (distinct : row.columns.Nodup)
    (finite : ∀ value ∈ row.values, value = .null ∨ value.isKept = true)
    (reads : ∀ value ∈ row.values, value.ReadsBack) : ofJson? row.toJson = some row := by
  have values : ∀ field ∈ row.fields, Value.ofJson? field.2.toJson = some (id field.2) := by
    intro field member
    have among : field.2 ∈ row.values := List.mem_map_of_mem member
    rcases finite field.2 among with null | kept
    · rw [null]
      rfl
    · exact Value.ofJson?_toJson kept (reads field.2 among)
  have entries := Json.entries?_ofMembers values
  have same : (row.fields.map fun field => (field.1, id field.2)) = row.fields := List.map_id _
  rw [ofJson?, toJson, entries, same, Option.map_some, Row.ofFields_of_distinct distinct]

end Row

namespace Relation

variable {relation : Relation}

/-- Reals of a relation are read as they were written. -/
structure ReadsBack (relation : Relation) : Prop where
  defaults : ∀ column ∈ relation.schema.columns, ∀ value ∈ column.default, value.ReadsBack
  rows : ∀ row ∈ relation.rows, ∀ value ∈ row.values, value.ReadsBack

instance : Decidable relation.ReadsBack :=
  decidable_of_iff (_ ∧ _) ⟨fun both => ⟨both.1, both.2⟩, fun reads => ⟨reads.1, reads.2⟩⟩

theorem readable_toJson : Readable relation.toJson := by
  refine Json.readable_ofMembers ?_
  simp only [List.forall_mem_cons, List.not_mem_nil, false_imp_iff, implies_true, and_true]
  exact ⟨Table.readable_toJson, Json.readable_ofList fun _ => Row.readable_toJson,
    Json.readable_ofInt _⟩

/-- The relation that the document of another one holds, with its key indexes. -/
def kept (relation : Relation) : Relation :=
  build relation.schema.kept relation.rows relation.nextId

theorem WellFormed.finite (wellFormed : relation.WellFormed) {row : Row}
    (stored : row ∈ relation.rows) :
    ∀ value ∈ row.values, value = .null ∨ value.isKept = true := by
  obtain ⟨columns, checked⟩ := wellFormed.rowsHeld row stored
  rw [Table.tuple_eq_values columns wellFormed.distinct] at checked
  obtain ⟨length, checked⟩ := Table.checkTuple_eq_ok_iff.mp checked
  intro value member
  have paired : (relation.schema.columns.zip row.values).map Prod.snd = row.values :=
    List.map_snd_zip (Nat.le_of_eq length)
  rw [← paired] at member
  obtain ⟨pair, among, rfl⟩ := List.mem_map.mp member
  obtain ⟨-, finite⟩ := Column.checkValue_eq_ok_iff.mp (checked pair among)
  cases content : pair.2 with
  | null => exact .inl rfl
  | real x => exact .inr (finite x content)
  | integer number => exact .inr rfl
  | text content => exact .inr rfl

theorem ofJson?_toJson (wellFormed : relation.WellFormed) (reads : relation.ReadsBack) :
    ofJson? relation.toJson = some { relation.kept with keys := [] } := by
  have rows : Json.list? Row.ofJson? (.ofList Row.toJson relation.rows) =
      some (relation.rows.map id) := by
    refine Json.list?_ofList fun row member => Row.ofJson?_toJson ?_ ?_ (reads.rows row member)
    · exact (wellFormed.rowsHeld row member).columns ▸ wellFormed.distinct
    · exact wellFormed.finite member
  rw [List.map_id] at rows
  rw [ofJson?, toJson, Json.Record.ofJson?_ofMembers]
  · simp [Json.Record.required, List.lookup_cons, Table.ofJson?_toJson reads.defaults, rows,
      Json.int64?_ofInt, kept, build]
  · rfl
  · decide

end Relation

namespace Directory

variable {α β : Type} {directory : Directory α} {encode : α → Json} {decode : Json → Option β}
variable {image : α → β}

theorem readable_toJson (readable : ∀ content, Readable (encode content)) :
    Readable (directory.toJson encode) := by
  refine Json.readable_ofMembers fun member among => ?_
  obtain ⟨entry, -, rfl⟩ := List.mem_map.mp among
  exact readable entry.2

theorem ofJson?_toJson
    (decoded : ∀ entry ∈ directory.entries, decode (encode entry.2) = some (image entry.2)) :
    ofJson? decode (directory.toJson encode) = some (directory.mapped image) := by
  rw [ofJson?, toJson, Json.entries?_ofMembers decoded, Option.map_some, ofList_mapped]

end Directory

namespace User

variable {user : User}

theorem readable_toJson : Readable user.toJson := by
  refine Json.readable_ofMembers ?_
  simp only [List.forall_mem_cons, List.not_mem_nil, false_imp_iff, implies_true, and_true]
  exact ⟨Json.readable_ofOption fun _ => .string _, .string _⟩

theorem ofJson?_toJson : ofJson? user.toJson = some user := by
  rw [ofJson?, toJson, Json.Record.ofJson?_ofMembers]
  · simp [Json.Record.required, Json.Record.optional, List.lookup_cons, Json.option?_ofText]
  · rfl
  · decide

end User

namespace Permission

theorem ofJson?_name (permission : Permission) : ofJson? (.ofText permission.name) = some permission := by
  rw [ofJson?, Json.word?_ofText]
  cases permission <;> decide

end Permission

namespace State

variable {state : State}

/-- Reals of a state are read as they were written. -/
def ReadsBack (state : State) : Prop :=
  ∀ entry ∈ state.store.relations.entries, entry.2.ReadsBack

instance : Decidable state.ReadsBack := inferInstanceAs (Decidable (∀ _ ∈ _, _))

theorem readable_toJson : Readable state.toJson := by
  refine Json.readable_ofMembers ?_
  simp only [List.forall_mem_cons, List.not_mem_nil, false_imp_iff, implies_true, and_true]
  exact ⟨Directory.readable_toJson fun _ => Relation.readable_toJson,
    Directory.readable_toJson fun _ => Json.readable_ofList fun _ => .string _,
    Directory.readable_toJson fun _ => User.readable_toJson⟩

/-- The relation that a document holds, before its key indexes are built. -/
def unindexed (relation : Relation) : Relation :=
  { relation.kept with keys := [] }

/-- Roles and users are read as they were written, but for the order in which permissions are
listed. Whether a state is read at all depends on its relations only. -/
theorem ofJson?_toJson_eq :
    ofJson? state.toJson =
      (Directory.ofJson? Relation.ofJson? (state.store.relations.toJson Relation.toJson)).map
        fun relations =>
          { store := { relations }
            access := { roles := state.access.roles.mapped Permission.listed
                        users := state.access.users } } := by
  have roles : Directory.ofJson?
      (fun field => (Json.list? Permission.ofJson? field).map Permission.listed)
      (state.access.roles.toJson (.ofList fun permission => .ofText permission.name)) =
        some (state.access.roles.mapped Permission.listed) := by
    refine Directory.ofJson?_toJson fun entry member => ?_
    have permissions : Json.list? Permission.ofJson?
        (.ofList (fun permission => .ofText permission.name) entry.2) = some (entry.2.map id) :=
      Json.list?_ofList fun permission _ => Permission.ofJson?_name permission
    rw [permissions, List.map_id, Option.map_some]
  have users : Directory.ofJson? User.ofJson? (state.access.users.toJson User.toJson) =
      some (state.access.users.mapped id) :=
    Directory.ofJson?_toJson fun entry _ => User.ofJson?_toJson
  rw [Directory.mapped_id] at users
  rw [ofJson?, toJson, Json.Record.ofJson?_ofMembers]
  · cases relations : Directory.ofJson? Relation.ofJson?
        (state.store.relations.toJson Relation.toJson) <;>
      simp [Json.Record.required, List.lookup_cons, relations, roles, users]
  · rfl
  · decide

theorem ofJson?_toJson (wellFormed : ∀ entry ∈ state.store.relations.entries, entry.2.WellFormed)
    (fixed : state.access.roles = Access.standard.roles) (reads : state.ReadsBack) :
    ofJson? state.toJson =
      some { state with store := ⟨state.store.relations.mapped unindexed⟩ } := by
  have relations : Directory.ofJson? Relation.ofJson? (state.store.relations.toJson Relation.toJson) =
      some (state.store.relations.mapped unindexed) :=
    Directory.ofJson?_toJson fun entry member =>
      Relation.ofJson?_toJson (wellFormed entry member) (reads entry member)
  have roles : state.access.roles.mapped Permission.listed = state.access.roles := by
    rw [fixed]
    exact Directory.ext_entries (by decide)
  rw [ofJson?_toJson_eq, relations, roles]
  rfl

end State

end Coffer
