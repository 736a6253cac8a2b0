import Coffer.Proofs.Reachable

namespace Coffer

/-! # Indexes over several columns

Rows are told apart by the unique columns, one by one. An index over several columns makes
none of them unique, so it keeps rows apart only where one of its columns is unique anyway.
-/

/-- The keys of a row in the columns of an index, unless one of them holds a null. -/
def Index.keys? (index : Index) (row : Row) : Option (List Key) :=
  index.columns.mapM fun column => (row.get? column).bind Value.key?

/-- No two rows have the same keys in all columns of an index. -/
def Relation.Enforces (relation : Relation) (index : Index) : Prop :=
  relation.rows.Pairwise fun first second =>
    ∀ keys, index.keys? first = some keys → index.keys? second ≠ some keys

/-- Statements that insert or update rows. -/
def Language.Statement.WritesRows : Language.Statement → Prop
  | .insert _ => True
  | .update _ => True
  | _ => False

namespace Database

/-- The database after statements that were run one after another, whether they went well or
failed. -/
def afterStatements (database : Database)
    (statements : List (Language.Statement × List Value)) : Database :=
  statements.foldl (fun database statement => (database.run statement.1 statement.2).1) database

end Database

/-! ## Texts that no number reads as -/

/-- A text of as many marks as are counted, and one more. -/
def tally (count : Nat) : String :=
  String.ofList ('x' :: List.replicate count 'x')

namespace Tally

variable {count other : Nat}

theorem injective (same : tally count = tally other) : count = other := by
  have lengths := congrArg (fun text : String => text.toList.length) same
  simpa [tally] using lengths

theorem trimmed_tally : Text.trimmed (tally count).toList = 'x' :: List.replicate count 'x' := by
  rw [tally, String.toList_ofList]
  refine Text.trimmed_of_not_isBlank fun mark member => ?_
  rcases List.mem_cons.mp member with rfl | member
  · decide
  · rw [List.eq_of_mem_replicate member]
    decide

theorem integerOfText?_tally : Value.integerOfText? (tally count) = none := by
  rw [Value.integerOfText?, trimmed_tally]
  rfl

theorem realOfText?_tally : Value.realOfText? (tally count) = none := by
  have noWord : ∀ word : List Char, word.head? ≠ some 'x' →
      Numeral.spells ('x' :: List.replicate count 'x') word = false := by
    intro word different
    rw [Numeral.spells, beq_eq_false_iff_ne]
    rintro rfl
    exact different rfl
  rw [Value.realOfText?, trimmed_tally, Numeral.real?]
  change Option.filter _ (if (Numeral.spells ('x' :: List.replicate count 'x') _ ||
    Numeral.spells ('x' :: List.replicate count 'x') _) = true then _
    else if Numeral.spells ('x' :: List.replicate count 'x') _ = true then _ else _) = none
  rw [noWord _ (by decide), noWord _ (by decide), noWord _ (by decide)]
  rfl

theorem key?_tally : (Value.text (tally count)).key? = some (.text (tally count)) := by
  rw [Value.key?, Key.ofText, integerOfText?_tally, realOfText?_tally]

theorem coerce_tally {type : ColumnType} :
    (Value.text (tally count)).coerce type = .text (tally count) := by
  cases type <;>
    simp [Value.coerce, Value.realOrText, integerOfText?_tally, realOfText?_tally]

/-- Among finitely many keys, those of long texts are not there. -/
theorem fresh_exists (keys : List Key) :
    ∃ bound, ∀ count, bound ≤ count → Key.text (tally count) ∉ keys := by
  induction keys with
  | nil => exact ⟨0, by simp⟩
  | cons key rest ih =>
      obtain ⟨bound, absent⟩ := ih
      cases key with
      | text content =>
          refine ⟨max bound content.toList.length, fun count large => ?_⟩
          rw [List.mem_cons, not_or, Key.text.injEq]
          refine ⟨?_, absent count (by omega)⟩
          rintro rfl
          have longer : (tally count).toList.length = count + 1 := by simp [tally]
          omega
      | integer number => exact ⟨bound, fun count large => by simp [absent count large]⟩
      | real number => exact ⟨bound, fun count large => by simp [absent count large]⟩

end Tally

/-! ## A row that clashes with none -/

section

variable {relation : Relation} {schema table : Table} {name : String} {counts : List Nat}
variable {column position : Nat}

/-- Texts for the columns of a table, each told by a count. -/
def tallies (counts : List Nat) : Tuple :=
  counts.map fun count => .text (tally count)

theorem foldl_set_zip (before : Tuple) {rest values : Tuple} (same : values.length = rest.length) :
    ((List.range' before.length rest.length).zip values).foldl
        (fun tuple pair => tuple.set pair.1 pair.2) (before ++ rest) = before ++ values := by
  induction rest generalizing before values with
  | nil =>
      cases List.eq_nil_of_length_eq_zero same
      simp
  | cons former rest ih =>
      obtain ⟨value, values, rfl⟩ := List.exists_cons_of_length_eq_add_one same
      have next := ih (before ++ [value]) (Nat.succ.inj same)
      simpa [List.range'_succ] using next

/-- Values for all columns are taken as they are, up to the types of the columns. -/
theorem insertTuple_all {values : Tuple} (same : values.length = table.columns.length) :
    insertTuple table (List.range table.columns.length) values =
      (values.zip table.columns).map fun pair => pair.1.coerce pair.2.type := by
  have filled := foldl_set_zip []
    (show values.length = (table.columns.map fun column => column.default.getD .null).length by
      rw [List.length_map, same])
  simp only [List.length_nil, List.length_map, List.nil_append, ← List.range_eq_range'] at filled
  rw [insertTuple, filled]

theorem insertTuple_tallies (same : counts.length = table.columns.length) :
    insertTuple table (List.range table.columns.length) (tallies counts) = tallies counts := by
  rw [insertTuple_all (by simpa [tallies] using same)]
  refine List.ext_getElem (by simp [tallies, same]) fun position _ _ => ?_
  simp [tallies, Tally.coerce_tally]

theorem checkTuple_tallies (same : counts.length = table.columns.length) :
    table.checkTuple (tallies counts) = .ok () := by
  refine Table.checkTuple_eq_ok_iff.mpr ⟨by simpa [tallies] using same, ?_⟩
  rintro ⟨column, value⟩ member
  obtain ⟨count, -, rfl⟩ := List.mem_map.mp (List.of_mem_zip member).2
  exact Column.checkValue_eq_ok_iff.mpr ⟨by simp, by simp⟩

theorem numberTuple_tallies {counted : Option Nat} {nextId : Int64}
    (within : ∀ position, counted = some position → position < counts.length) :
    numberTuple counted nextId (tallies counts) = (tallies counts, nextId) := by
  cases counted with
  | none => rfl
  | some position =>
      obtain ⟨count, found⟩ : ∃ count, counts[position]? = some count :=
        ⟨_, List.getElem?_eq_getElem (within position rfl)⟩
      have held : (tallies counts).getD position .null = .text (tally count) := by
        simp [tallies, List.getD_eq_getElem?_getD, found]
      rw [numberTuple, held]

theorem insertValues_of_accepted {columns : Option (List String)}
    {resolution : Language.Resolution} {state : Inserting} {values tuple : Tuple}
    {targets : List Nat} {nextId : Int64} {staged : Staged}
    (located : insertTargets state.staged.relation.schema columns values.length = .ok targets)
    (numbered : numberTuple state.staged.relation.schema.countedPosition? state.nextId
      (insertTuple state.staged.relation.schema targets values) = (tuple, nextId))
    (checked : state.staged.relation.schema.checkTuple tuple = .ok ())
    (accepted : state.staged.accept tuple none resolution = .ok (some staged)) :
    insertValues columns resolution state values = .ok ⟨staged.append tuple, nextId⟩ := by
  simp only [insertValues, located, ok_bind, numbered, checked, accepted]
  rfl

theorem rowsOutside_nil {rows : List Row} {start : Nat} :
    Relation.rowsOutside [] start rows = rows := by
  induction rows generalizing start with
  | nil => rfl
  | cons row rest ih => simp [Relation.rowsOutside, ih]

/-- A row of texts that no row has in a unique column yet is inserted behind all rows. -/
theorem insertAll_tallies (wellFormed : relation.WellFormed)
    (same : counts.length = relation.schema.columns.length)
    (fresh : ∀ column ∈ relation.schema.uniqueColumns, ∀ row ∈ relation.rows, ∀ key,
      ((tallies counts).getD column .null).key? = some key →
      Relation.keyOf relation.schema row column ≠ some key) :
    ∃ inserted, relation.insertAll none .abort [tallies counts] = .ok inserted ∧
      inserted.relation.schema = relation.schema ∧
      inserted.relation.rows = relation.rows ++ [relation.schema.row (tallies counts)] := by
  have located : insertTargets relation.schema none (tallies counts).length =
      .ok (List.range relation.schema.columns.length) := by
    rw [insertTargets, if_pos (by rw [tallies, List.length_map, same])]
  have numbered : numberTuple relation.schema.countedPosition? relation.nextId
      (insertTuple relation.schema (List.range relation.schema.columns.length)
        (tallies counts)) = (tallies counts, relation.nextId) := by
    rw [insertTuple_tallies same]
    exact numberTuple_tallies fun position counted =>
      same ▸ Table.lt_of_countedPosition? wellFormed.distinct counted
  have started := Staged.start_sound wellFormed
  have clear : (Staged.start relation).firstClash? (tallies counts) none = none := by
    refine (Staged.firstClash?_eq_none_iff started).mpr fun column unique => ?_
    rw [List.eq_nil_iff_forall_not_mem]
    intro position clash
    obtain ⟨-, key, tupleKey, live⟩ := (Staged.mem_clashes started unique).mp clash
    obtain ⟨row, stored, rowKey⟩ := Option.bind_eq_some_iff.mp live
    exact fresh column unique row (List.mem_of_getElem? stored) key tupleKey rowKey
  have accepted : (Staged.start relation).accept (tallies counts) none .abort =
      .ok (some (.start relation)) := by rw [Staged.accept, clear]
  have staged : relation.stageInsertion none .abort [tallies counts] =
      .ok ((Staged.start relation).append (tallies counts)) := by
    simp only [Relation.stageInsertion, List.foldlM_cons, List.foldlM_nil]
    rw [insertValues_of_accepted located numbered (checkTuple_tallies same) accepted]
    rfl
  refine ⟨writeInsertion ((Staged.start relation).append (tallies counts)), ?_,
    Staged.schema_writeInsertion, ?_⟩
  · rw [Relation.insertAll, staged]
    rfl
  · rw [writeInsertion, Staged.rows_foldl_insert]
    change (relation.delete []).rows ++ [relation.schema.row (tallies counts)] = _
    rw [Relation.rows_delete, rowsOutside_nil]

end

/-! ## What an index keeps apart -/

section

variable {schema : Table} {relation : Relation} {index : Index} {row : Row} {rows : List Row}
variable {column : String} {position : Nat}

theorem keyOf_eq_get? (distinct : schema.columnNames.Nodup)
    (located : schema.position? column = some position) :
    Relation.keyOf schema row position = (row.get? column).bind Value.key? := by
  rw [Table.position?_eq_some_iff distinct] at located
  rw [Relation.keyOf, Table.tuple, List.getElem?_map, located, Option.map_some, Option.bind_some]
  cases row.get? column <;> rfl

theorem eq_of_mapM_eq {first second : String → Option Key} {columns : List String}
    {keys : List Key} (firstKeys : columns.mapM first = some keys)
    (secondKeys : columns.mapM second = some keys) (member : column ∈ columns) :
    ∃ key, first column = some key ∧ second column = some key := by
  induction columns generalizing keys with
  | nil => simp at member
  | cons other rest ih =>
      simp only [List.mapM_cons, bind, Option.bind_eq_some_iff, pure, Option.some.injEq]
        at firstKeys secondKeys
      obtain ⟨key, firstKey, others, firstOthers, rfl⟩ := firstKeys
      obtain ⟨sameKey, secondKey, sameOthers, secondOthers, same⟩ := secondKeys
      obtain ⟨rfl, rfl⟩ := List.cons.inj same
      rcases List.mem_cons.mp member with rfl | later
      · exact ⟨sameKey, firstKey, secondKey⟩
      · exact ih firstOthers secondOthers later

/-- An index keeps rows apart where one of its columns does. -/
theorem enforces_of_unique (wellFormed : relation.WellFormed) (member : column ∈ index.columns)
    (located : relation.schema.position? column = some position)
    (unique : position ∈ relation.schema.uniqueColumns) : relation.Enforces index := by
  refine List.Pairwise.imp ?_ (wellFormed.keysDistinct position unique)
  intro first second apart keys firstKeys secondKeys
  obtain ⟨key, firstKey, secondKey⟩ := eq_of_mapM_eq firstKeys secondKeys member
  refine apart key ?_ ?_
  · rwa [keyOf_eq_get? wellFormed.distinct located]
  · rwa [keyOf_eq_get? wellFormed.distinct located]

/-- The counts that tell the texts of a row apart from others in the unique columns only. -/
def freshCounts (schema : Table) (count : Nat) : List Nat :=
  (List.range schema.columns.length).map fun position =>
    if position ∈ schema.uniqueColumns then count else 0

theorem length_freshCounts {count : Nat} :
    (freshCounts schema count).length = schema.columns.length := by
  simp [freshCounts]

theorem getD_freshCounts {count : Nat} (within : position < schema.columns.length) :
    (tallies (freshCounts schema count)).getD position .null =
      .text (tally (if position ∈ schema.uniqueColumns then count else 0)) := by
  simp [tallies, freshCounts, List.getD_eq_getElem?_getD, within]

theorem mapM_eq_of_forall {read : String → Option Key} {columns : List String} {key : Key}
    (all : ∀ column ∈ columns, read column = some key) :
    columns.mapM read = some (columns.map fun _ => key) := by
  induction columns with
  | nil => rfl
  | cons column rest ih =>
      obtain ⟨found, others⟩ := List.forall_mem_cons.mp all
      simp [found, ih others]

/-- Rows of fresh texts share their keys in an index without a unique column. -/
theorem keys?_freshCounts (count : Nat) (valid : schema.check = .ok ())
    (located : ∀ column ∈ index.columns, column ∈ schema.columnNames)
    (bare : ∀ column ∈ index.columns, ∀ position ∈ schema.uniqueColumns,
      schema.position? column ≠ some position) :
    index.keys? (schema.row (tallies (freshCounts schema count))) =
      some (index.columns.map fun _ => .text (tally 0)) := by
  have distinct := Table.columnNames_nodup valid
  refine mapM_eq_of_forall fun column member => ?_
  obtain ⟨position, found⟩ : ∃ position, schema.position? column = some position := by
    rw [← Option.ne_none_iff_exists']
    exact fun missing => Table.position?_eq_none_iff.mp missing (located column member)
  have within : position < schema.columns.length := by
    rw [Table.position?_eq_some_iff distinct] at found
    rw [← Table.length_columnNames]
    exact (List.getElem?_eq_some_iff.mp found).1
  have plain : position ∉ schema.uniqueColumns := fun unique =>
    bare column member position unique found
  rw [← keyOf_eq_get? distinct found,
    Staged.keyOf_row distinct (checkTuple_tallies length_freshCounts), getD_freshCounts within,
    if_neg plain, Tally.key?_tally]

end

namespace Database

variable {database : Database} {relation changed : Relation} {name : String} {counts : List Nat}
variable {index : Index} {statement : Language.Statement} {parameters : List Value}

/-- The statement that inserts a row of texts. -/
def insertion (table : String) (counts : List Nat) : Language.Statement :=
  .insert {
    resolution := none, table, columns := none
    source := .values [counts.map fun count => .literal (.string (tally count))] }

theorem mapM_constant {context : PlanContext} :
    (counts.map fun count => Language.Expression.literal (.string (tally count))).mapM
      context.constant = .ok (tallies counts) := by
  induction counts with
  | nil => rfl
  | cons count rest ih =>
      rw [List.map_cons, List.mapM_cons, ih]
      rfl

theorem run_insertion (counts : List Nat) (wellFormed : database.WellFormed)
    (held : (name, relation) ∈ database.state.store.relations.entries)
    (same : counts.length = relation.schema.columns.length)
    (fresh : ∀ column ∈ relation.schema.uniqueColumns, ∀ row ∈ relation.rows, ∀ key,
      ((tallies counts).getD column .null).key? = some key →
      Relation.keyOf relation.schema row column ≠ some key) :
    ∃ changed, (name, changed) ∈
        (database.run (insertion name counts) []).1.state.store.relations.entries ∧
      changed.schema = relation.schema ∧
      changed.rows = relation.rows ++ [relation.schema.row (tallies counts)] := by
  have store := wellFormed.current.store
  have named : relation.schema.name = name := store.named _ held
  have found := Store.relation_eq_ok_iff.mpr held
  obtain ⟨inserted, inserts, sameSchema, rows⟩ :=
    insertAll_tallies (store.relations _ held) same fresh
  have planned : planStatement { store := database.state.store, parameters := [] }
      (insertion name counts) = .ok (.insert name none .abort (.values [tallies counts])) := by
    simp only [planStatement, insertion, planInsert, Store.table, found, Except.map, ok_bind,
      Option.getD_none, checkTargets, List.mapM_cons, List.mapM_nil, mapM_constant, named]
    rfl
  have ran : Plan.run database.state.store (.insert name none .abort (.values [tallies counts])) =
      .ok (database.state.store.replace name inserted.relation,
        .inserted inserted.count inserted.lastId) := by
    simp only [Plan.run, found, ok_bind, QueryPlan.run, inserts]
    rfl
  refine ⟨inserted.relation, ?_, sameSchema, rows⟩
  change (name, inserted.relation) ∈
    (database.runPlanned (insertion name counts) []).1.state.store.relations.entries
  rw [runPlanned_eq wellFormed, planned, ok_bind, ran,
    Store.replace_eq_holding (by rw [sameSchema, named])]
  exact Directory.mem_insert_iff.mpr (.inl rfl)

end Database

/-- Plans that insert or update rows. -/
def Plan.WritesRows : Plan → Prop
  | .insert .. => True
  | .update .. => True
  | _ => False

theorem planStatement_writesRows {context : PlanContext} {statement : Language.Statement}
    {plan : Plan} (writes : statement.WritesRows)
    (planned : planStatement context statement = .ok plan) : plan.WritesRows := by
  cases statement with
  | insert insert =>
      simp only [planStatement, planInsert, bind_eq_ok_iff] at planned
      obtain ⟨table, -, _, -, planned⟩ := planned
      split at planned
      all_goals
        simp only [bind_eq_ok_iff, pure_eq_ok_iff] at planned
        obtain ⟨source, -, rfl⟩ := planned
        trivial
  | update update =>
      simp only [planStatement, planUpdate, bind_eq_ok_iff, pure_eq_ok_iff] at planned
      obtain ⟨table, -, filter, -, assignments, -, rfl⟩ := planned
      trivial
  | _ => cases writes

theorem Store.schema_replace {store : Store} {table name : String} {former after changed : Relation}
    (wellFormed : store.WellFormed) (found : store.relation table = .ok former)
    (same : after.schema = former.schema)
    (held : (name, changed) ∈ (store.replace table after).relations.entries) :
    ∃ relation, (name, relation) ∈ store.relations.entries ∧ changed.schema = relation.schema := by
  have present := relation_eq_ok_iff.mp found
  have named : former.schema.name = table := wellFormed.named _ present
  rw [replace_eq_holding (by rw [same, named])] at held
  rcases Directory.mem_insert_iff.mp held with here | ⟨other, -⟩
  · cases here
    exact ⟨former, present, same⟩
  · exact ⟨changed, other, rfl⟩

/-- Inserting and updating rows leaves the schemas as they were. -/
theorem Plan.schema_run {plan : Plan} {store after : Store} {outcome : Outcome} {name : String}
    {changed : Relation} (wellFormed : store.WellFormed) (writes : plan.WritesRows)
    (ran : plan.run store = .ok (after, outcome))
    (held : (name, changed) ∈ after.relations.entries) :
    ∃ relation, (name, relation) ∈ store.relations.entries ∧ changed.schema = relation.schema := by
  cases Plan.writes_of_run ran with
  | inserted found _ inserts =>
      have formed := wellFormed.relations _ (Store.relation_eq_ok_iff.mp found)
      exact Store.schema_replace wellFormed found (insertAll_wellFormed formed inserts).1 held
  | updated found updates =>
      have formed := wellFormed.relations _ (Store.relation_eq_ok_iff.mp found)
      exact Store.schema_replace wellFormed found (updateAll_wellFormed formed updates).1 held
  | _ => cases writes

namespace Database

variable {database : Database} {relation changed : Relation} {name : String}
variable {index : Index} {statement : Language.Statement} {parameters : List Value}
variable {statements : List (Language.Statement × List Value)}

theorem schema_run (wellFormed : database.WellFormed) (writes : statement.WritesRows)
    (held : (name, changed) ∈
      (database.run statement parameters).1.state.store.relations.entries) :
    ∃ relation, (name, relation) ∈ database.state.store.relations.entries ∧
      changed.schema = relation.schema := by
  have planned (held : (name, changed) ∈
      (database.runPlanned statement parameters).1.state.store.relations.entries) :
      ∃ relation, (name, relation) ∈ database.state.store.relations.entries ∧
        changed.schema = relation.schema := by
    rcases runPlanned_cases wellFormed with ⟨plan, store, outcome, plans, ran, done⟩ | ⟨_, failed⟩
    · rw [done] at held
      exact Plan.schema_run wellFormed.current.store (planStatement_writesRows writes plans) ran held
    · rw [failed] at held
      exact ⟨changed, held, rfl⟩
  cases statement with
  | insert insert => exact planned held
  | update update => exact planned held
  | _ => cases writes

theorem afterStatements_wellFormed (statements : List (Language.Statement × List Value))
    (wellFormed : database.WellFormed) :
    (database.afterStatements statements).WellFormed := by
  induction statements generalizing database with
  | nil => exact wellFormed
  | cons statement rest ih => exact ih (run_wellFormed wellFormed)

theorem schema_afterStatements (wellFormed : database.WellFormed)
    (writes : ∀ statement ∈ statements, statement.1.WritesRows)
    (held : (name, changed) ∈
      (database.afterStatements statements).state.store.relations.entries) :
    ∃ relation, (name, relation) ∈ database.state.store.relations.entries ∧
      changed.schema = relation.schema := by
  induction statements generalizing database with
  | nil => exact ⟨changed, held, rfl⟩
  | cons statement rest ih =>
      obtain ⟨first, others⟩ := List.forall_mem_cons.mp writes
      obtain ⟨middle, middleHeld, middleSchema⟩ := ih (run_wellFormed wellFormed) others held
      obtain ⟨relation, relationHeld, sameSchema⟩ := schema_run wellFormed first middleHeld
      exact ⟨relation, relationHeld, middleSchema.trans sameSchema⟩

/-- Two rows can be inserted that have the same keys in an index without a unique column. -/
theorem insertions_repeat_keys (wellFormed : database.WellFormed)
    (held : (name, relation) ∈ database.state.store.relations.entries)
    (listed : index ∈ relation.schema.indexes)
    (bare : ∀ column ∈ index.columns, ∀ position ∈ relation.schema.uniqueColumns,
      relation.schema.position? column ≠ some position) :
    ∃ first second changed, (name, changed) ∈ (database.afterStatements
        [(insertion name first, []), (insertion name second, [])]).state.store.relations.entries ∧
      ¬ changed.Enforces index := by
  have formed := wellFormed.current.store.relations _ held
  obtain ⟨bound, absent⟩ := Tally.fresh_exists
    (relation.rows.flatMap fun row => (relation.schema.tuple row).filterMap Value.key?)
  let counts := freshCounts relation.schema
  have uniqueKey : ∀ count, ∀ column ∈ relation.schema.uniqueColumns,
      ((tallies (counts count)).getD column .null).key? = some (.text (tally count)) := by
    intro count column unique
    rw [getD_freshCounts (Table.lt_of_mem_uniqueColumns formed.distinct unique), if_pos unique,
      Tally.key?_tally]
  have stored : ∀ count, bound ≤ count → ∀ row ∈ relation.rows, ∀ column,
      Relation.keyOf relation.schema row column ≠ some (.text (tally count)) := by
    intro count large row member column taken
    refine absent count large (List.mem_flatMap.mpr ⟨row, member, ?_⟩)
    obtain ⟨value, valueAt, key⟩ := Option.bind_eq_some_iff.mp taken
    exact List.mem_filterMap.mpr ⟨value, List.mem_of_getElem? valueAt, key⟩
  obtain ⟨middle, middleHeld, middleSchema, middleRows⟩ := run_insertion (counts bound) wellFormed
    held length_freshCounts fun column unique row member key rowKey taken => by
      rw [uniqueKey bound column unique, Option.some.injEq] at rowKey
      exact stored bound (Nat.le_refl _) row member column (rowKey ▸ taken)
  obtain ⟨changed, changedHeld, changedSchema, changedRows⟩ := run_insertion
    (counts (bound + 1)) (run_wellFormed wellFormed) middleHeld
    (by rw [middleSchema]; exact length_freshCounts) fun column unique row member key rowKey taken => by
      rw [middleSchema] at unique taken
      rw [uniqueKey (bound + 1) column unique, Option.some.injEq] at rowKey
      subst rowKey
      rw [middleRows] at member
      rcases List.mem_append.mp member with former | added
      · exact stored (bound + 1) (by omega) row former column taken
      · rw [List.mem_singleton.mp added,
          Staged.keyOf_row formed.distinct (checkTuple_tallies length_freshCounts),
          uniqueKey bound column unique, Option.some.injEq, Key.text.injEq] at taken
        have same := Tally.injective taken
        omega
  refine ⟨counts bound, counts (bound + 1), changed, changedHeld, fun enforces => ?_⟩
  rw [Relation.Enforces, changedRows, middleRows, middleSchema] at enforces
  have shared := fun count => keys?_freshCounts count formed.schemaValid
    (formed.indexColumns index listed) bare
  have apart := (List.pairwise_append.mp enforces).2.2
    (relation.schema.row (tallies (counts bound))) (by simp) _ (List.mem_singleton_self _)
  exact apart _ (shared bound) (shared (bound + 1))

/-- What an index over several columns says of uniqueness is upheld by later insertions and
updates just where one of its columns is unique on its own. -/
theorem index_upheld_iff (reached : database.Reachable)
    (held : (name, relation) ∈ database.state.store.relations.entries)
    (listed : index ∈ relation.schema.indexes) :
    (∀ statements : List (Language.Statement × List Value),
      (∀ statement ∈ statements, statement.1.WritesRows) → ∀ changed,
        (name, changed) ∈
          (database.afterStatements statements).state.store.relations.entries →
        changed.Enforces index) ↔
      ∃ column ∈ index.columns, ∃ position ∈ relation.schema.uniqueColumns,
        relation.schema.position? column = some position := by
  have wellFormed := reached.wellFormed
  constructor
  · intro upheld
    by_contra none
    simp only [not_exists, not_and] at none
    obtain ⟨first, second, changed, changedHeld, broken⟩ :=
      insertions_repeat_keys wellFormed held listed none
    exact broken (upheld _ (by simp [insertion, Language.Statement.WritesRows]) changed changedHeld)
  · rintro ⟨column, member, position, unique, located⟩ statements writes changed changedHeld
    obtain ⟨former, formerHeld, sameSchema⟩ :=
      schema_afterStatements wellFormed writes changedHeld
    cases Directory.eq_of_same_name held formerHeld rfl
    have formed := (afterStatements_wellFormed statements
      wellFormed).current.store.relations _ changedHeld
    rw [← sameSchema] at unique located
    exact enforces_of_unique formed member located unique

/-- Two columns that are not unique on their own are not kept apart as a pair. -/
theorem pair_index_not_upheld :
    let database := fromTexts ["CREATE TABLE t (id INTEGER PRIMARY KEY, a TEXT, b TEXT)",
      "CREATE UNIQUE INDEX i ON t (a, b)"]
    let index : Index := { name := "i", columns := ["a", "b"], unique := true }
    ∃ relation, ("t", relation) ∈ database.state.store.relations.entries ∧
      index ∈ relation.schema.indexes ∧
      ¬ ∀ statements : List (Language.Statement × List Value),
        (∀ statement ∈ statements, statement.1.WritesRows) → ∀ changed,
          ("t", changed) ∈
            (database.afterStatements statements).state.store.relations.entries →
          changed.Enforces index := by
  let key : Column :=
    { Column.plain "id" .integer with primaryKey := true, autoincrement := true, nullable := false }
  let schema : Table :=
    { name := "t", columns := [key, .plain "a" .text, .plain "b" .text]
      indexes := [{ name := "i", columns := ["a", "b"], unique := true }] }
  have held : ("t", Relation.build schema [] 1) ∈ (fromTexts
      ["CREATE TABLE t (id INTEGER PRIMARY KEY, a TEXT, b TEXT)",
        "CREATE UNIQUE INDEX i ON t (a, b)"]).state.store.relations.entries := by decide +kernel
  have listed : { name := "i", columns := ["a", "b"], unique := true } ∈
      (Relation.build schema [] 1).schema.indexes := by decide
  refine ⟨.build schema [] 1, held, listed, fun upheld => ?_⟩
  obtain ⟨column, member, position, unique, located⟩ :=
    (index_upheld_iff fromTexts_reachable held listed).mp upheld
  revert position
  revert column
  decide

end Database

end Coffer
