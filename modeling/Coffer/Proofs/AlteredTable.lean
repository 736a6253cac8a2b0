import Coffer.Proofs.Numbering
import Coffer.Proofs.Untouched

namespace Coffer

/-! # Tables whose schemas change

A table under another name, or with a column under another name, holds what it held before, counts
on from where it was and answers lookups alike. Named back, it is the table that it was. A column
that is added comes behind the values of every row, with its default.
-/

open Coffer.Language (Statement)

/-- Whether two relations hold the same values in the same order, count on from the same number,
and answer every lookup alike. -/
structure Relation.Matches (before after : Relation) : Prop where
  tuples : after.tuples = before.tuples
  nextId : after.nextId = before.nextId
  lookup : ∀ column value, after.lookup column value = before.lookup column value

/-- Whether a relation is another one again: its schema with all indexes, its rows field by field,
its counter, and its key indexes, which list the same positions for each key of each column. -/
structure Relation.Restores (before after : Relation) : Prop where
  schema : after.schema = before.schema
  rows : after.rows = before.rows
  nextId : after.nextId = before.nextId
  columns : after.keys.map Prod.fst = before.keys.map Prod.fst
  positions : ∀ column key, after.positionsOf column key = before.positionsOf column key

/-- Whether a table is the given relation again after a statement, whoever asks for it and may do
so. -/
def Database.Recovers (database : Database) (statement : Statement) (name : String)
    (relation : Relation) : Prop :=
  ∀ request parsed, Language.parse request.sql = .ok parsed → parsed.statement = statement →
    database.check parsed request = .ok () →
    ∃ outcome again, (database.perform request).2 = .ok outcome ∧
      (database.perform request).1.state.store.relation name = .ok again ∧ relation.Restores again

/-- The table with a column that a statement gives another name, the column, and that name. -/
def Language.Statement.columnRenaming? : Statement → Option (String × String × String)
  | .alter ⟨table, .renameColumn source target⟩ => some (table, source, target)
  | _ => none

theorem Language.Statement.of_columnRenaming? {statement : Statement}
    {table source target : String}
    (renames : statement.columnRenaming? = some (table, source, target)) :
    statement = .alter ⟨table, .renameColumn source target⟩ := by
  cases statement with
  | alter alter =>
      obtain ⟨name, action⟩ := alter
      cases action with
      | renameColumn former fresh =>
          cases renames
          rfl
      | _ => cases renames
  | _ => cases renames

/-! ## Lookups -/

namespace Relation

variable {before between after relation changed : Relation} {schema : Table} {change : Row → Row}
variable {source target : String} {column : Column} {value : Value} {row : Row}

theorem keyAt_eq_tuples (column position : Nat) :
    relation.keyAt column position =
      relation.tuples[position]?.bind fun tuple => tuple[column]?.bind Value.key? := by
  rw [keyAt, keyAmong, tuples, List.getElem?_map]
  cases relation.rows[position]? <;> rfl

/-- Where key indexes tell of the rows as they are, positions follow from the keys. -/
theorem positionsOf_congr (first : before.Indexed) (second : after.Indexed) {column : Nat}
    (same : ∀ position, after.keyAt column position = before.keyAt column position) (key : Key) :
    after.positionsOf column key = before.positionsOf column key := by
  refine (positionsOf_ascending second).eq_of_mem_iff (positionsOf_ascending first)
    fun position => ?_
  rw [mem_positionsOf second, mem_positionsOf first, same]

theorem lookup_congr {column : Nat} {value : Value}
    (same : ∀ key, after.positionsOf column key = before.positionsOf column key) :
    after.lookup column value = before.lookup column value := by
  rw [lookup, lookup]
  cases value.key? with
  | none => rfl
  | some key => exact same key

theorem Matches.of_tuples (first : before.Indexed) (second : after.Indexed)
    (tuples : after.tuples = before.tuples) (nextId : after.nextId = before.nextId) :
    before.Matches after := by
  refine ⟨tuples, nextId, fun column value => lookup_congr fun key => ?_⟩
  refine positionsOf_congr first second (fun position => ?_) key
  rw [keyAt_eq_tuples, keyAt_eq_tuples, tuples]

theorem Restores.of_rows (first : before.Indexed) (second : after.Indexed)
    (schema : after.schema = before.schema) (rows : after.rows = before.rows)
    (nextId : after.nextId = before.nextId) : before.Restores after := by
  refine ⟨schema, rows, nextId, ?_, fun column key => ?_⟩
  · rw [first.columns_eq, second.columns_eq, schema]
  · refine positionsOf_congr first second (fun position => ?_) key
    rw [keyAt, keyAt, schema, rows]

/-! ## Counters -/

/-- A row whose number the counter is past does not move it. -/
theorem counterAfter_of_passed (distinct : relation.schema.columnNames.Nodup)
    (passed : ∀ number, relation.schema.number? (relation.schema.tuple row) = some number →
      followingId number ≤ relation.nextId) :
    relation.counterAfter row = relation.nextId := by
  rw [counterAfter_eq distinct]
  cases numbered : relation.schema.number? (relation.schema.tuple row) with
  | none => rfl
  | some number =>
      by_cases ordered : relation.nextId ≤ followingId number
      · exact Int64.le_antisymm ((if_pos ordered).trans_le (passed number numbered))
          (first_le_max _ _)
      · exact if_neg ordered

theorem nextId_updateFrom {position : Nat} {rows : List Row}
    (distinct : relation.schema.columnNames.Nodup)
    (passed : ∀ row ∈ rows, ∀ number,
      relation.schema.number? (relation.schema.tuple row) = some number →
        followingId number ≤ relation.nextId)
    (updated : relation.updateFrom position rows = .ok changed) :
    changed.nextId = relation.nextId := by
  induction rows generalizing relation position with
  | nil =>
      cases updated
      rfl
  | cons row rest ih =>
      obtain ⟨first, others⟩ := List.forall_mem_cons.mp passed
      obtain ⟨next, stepped, updated⟩ := bind_eq_ok_iff.mp updated
      have schema := schema_update stepped
      have counter : next.nextId = relation.nextId :=
        (nextId_update stepped).trans (counterAfter_of_passed distinct first)
      rw [← counter]
      refine ih ?_ ?_ updated
      · rwa [schema]
      · rwa [schema, counter]

/-- Rows that are rewritten do not move a counter that is past their numbers, which they keep. -/
theorem nextId_rewrite (distinct : schema.columnNames.Nodup) (passed : relation.Passed)
    (same : ∀ row ∈ relation.rows, schema.countedValue? (schema.tuple (change row)) =
      relation.schema.countedValue? (relation.schema.tuple row))
    (rewritten : relation.rewrite schema change = .ok changed) :
    changed.nextId = relation.nextId := by
  refine @nextId_updateFrom (relation.alter schema) changed _ _ distinct ?_ rewritten
  intro row member number numbered
  obtain ⟨former, listed, rfl⟩ := List.mem_map.mp member
  refine passed number (List.mem_filterMap.mpr ⟨_, List.mem_map_of_mem listed, ?_⟩)
  rw [← numbered, Table.number?, ← same former listed]
  rfl

/-! ## Another name of a table -/

theorem renameTable_matches (wellFormed : relation.WellFormed) :
    relation.Matches (relation.alter { relation.schema with name := target }) :=
  .of_tuples wellFormed.indexed build_indexed rfl rfl

end Relation

/-! ## Another name of a column -/

theorem Row.rename_rename {row : Row} {source target : String} (absent : target ∉ row.columns) :
    (row.rename source target).rename target source = row := by
  obtain ⟨fields⟩ := row
  refine congrArg Row.mk ?_
  change renameField target source (renameField source target fields) = fields
  induction fields with
  | nil => rfl
  | cons field rest ih =>
      obtain ⟨other, others⟩ := not_or.mp (List.mem_cons.not.mp absent)
      by_cases named : field.1 = source
      · rw [renameField, if_pos named, renameField, if_pos rfl, ← named]
      · rw [renameField, if_neg named, renameField, if_neg (Ne.symm other), ih others]

theorem renamed_renamed {source target name : String} (differs : name ≠ target) :
    renamed target source (renamed source target name) = name := by
  by_cases named : name = source
  · rw [renamed, renamed, if_pos named, if_pos rfl, named]
  · rw [renamed, renamed, if_neg named, if_neg differs]

namespace Table

variable {table : Table} {source target : String}

/-- The former name of a column is free again. -/
theorem absent_renameColumn (present : source ∈ table.columnNames)
    (fresh : target ∉ table.columnNames) :
    source ∉ (table.renameColumn source target).columnNames := by
  rw [columnNames_renameColumn, List.mem_map]
  rintro ⟨name, -, same⟩
  rw [renamed] at same
  split at same
  · exact fresh (same ▸ present)
  · rename_i differs
    exact differs same

theorem present_renameColumn (present : source ∈ table.columnNames) :
    target ∈ (table.renameColumn source target).columnNames := by
  rw [columnNames_renameColumn]
  exact List.mem_map.mpr ⟨source, present, if_pos rfl⟩

/-- A column that is named back is back under its name in all indexes. -/
theorem renameColumn_renameColumn (fresh : target ∉ table.columnNames)
    (indexColumns : ∀ index ∈ table.indexes, ∀ column ∈ index.columns,
      column ∈ table.columnNames) :
    (table.renameColumn source target).renameColumn target source = table := by
  have restored {name : String} (member : name ∈ table.columnNames) :
      renamed target source (renamed source target name) = name :=
    renamed_renamed fun same => fresh (same ▸ member)
  have columns : ∀ column ∈ table.columns,
      ({ column with name := renamed target source (renamed source target column.name) } : Column) =
        column := fun column member => by
    rw [restored (List.mem_map_of_mem member)]
  have indexes : ∀ index ∈ table.indexes,
      ({ index with columns :=
        (index.columns.map (renamed source target)).map (renamed target source) } : Index) =
        index := fun index member => by
    have names : (index.columns.map (renamed source target)).map (renamed target source) =
        index.columns := by
      rw [List.map_map]
      exact (List.map_congr_left fun name listed =>
        restored (indexColumns index member name listed)).trans (List.map_id _)
    rw [names]
  obtain ⟨name, tableColumns, tableIndexes⟩ := table
  simp only [renameColumn, List.map_map, Table.mk.injEq, true_and]
  exact ⟨(List.map_congr_left columns).trans (List.map_id _),
    (List.map_congr_left indexes).trans (List.map_id _)⟩

end Table

namespace Relation

variable {relation changed again : Relation} {source target : String} {column : Column}
variable {value : Value}

theorem renameColumn_matches (wellFormed : relation.WellFormed) (passed : relation.Passed)
    (fresh : target ∉ relation.schema.columnNames)
    (rewritten : relation.rewrite (relation.schema.renameColumn source target)
      (fun row => row.rename source target) = .ok changed) : relation.Matches changed := by
  obtain ⟨schema, formed⟩ := renameColumn_wellFormed wellFormed fresh rewritten
  have distinct : (relation.schema.renameColumn source target).columnNames.Nodup :=
    Table.renameColumn_distinct fresh wellFormed.distinct
  have same : ∀ row ∈ relation.rows,
      (relation.schema.renameColumn source target).tuple (row.rename source target) =
        relation.schema.tuple row := fun row stored =>
    Table.tuple_renameColumn fresh wellFormed.distinct (wellFormed.rowsHeld row stored).columns
  refine .of_tuples wellFormed.indexed formed.indexed ?_
    (nextId_rewrite distinct passed ?_ rewritten)
  · rw [tuples, (rewrite_spec rewritten).2.1, schema, List.map_map]
    exact List.map_congr_left same
  · intro row stored
    rw [same row stored, Table.countedValue?_renameColumn fresh wellFormed.distinct]

/-- Rows that are rewritten twice have their fields under the former names again. -/
theorem renameColumn_restores (wellFormed : relation.WellFormed) (passed : relation.Passed)
    (present : source ∈ relation.schema.columnNames)
    (fresh : target ∉ relation.schema.columnNames)
    (rewritten : relation.rewrite (relation.schema.renameColumn source target)
      (fun row => row.rename source target) = .ok changed)
    (back : changed.rewrite (changed.schema.renameColumn target source)
      (fun row => row.rename target source) = .ok again) : relation.Restores again := by
  obtain ⟨schema, formed⟩ := renameColumn_wellFormed wellFormed fresh rewritten
  have free : source ∉ changed.schema.columnNames :=
    schema ▸ Table.absent_renameColumn present fresh
  have forward := renameColumn_matches wellFormed passed fresh rewritten
  have stillPassed : changed.Passed :=
    ((Becomes.columnRenamed fresh rewritten).advances wellFormed).passed passed
  have backward := renameColumn_matches formed stillPassed free back
  obtain ⟨restored, againFormed⟩ := renameColumn_wellFormed formed free back
  refine .of_rows wellFormed.indexed againFormed.indexed ?_ ?_
    (backward.nextId.trans forward.nextId)
  · rw [restored, schema, Table.renameColumn_renameColumn fresh wellFormed.indexColumns]
  · rw [(rewrite_spec back).2.1, (rewrite_spec rewritten).2.1, List.map_map]
    refine (List.map_congr_left fun row stored => ?_).trans (List.map_id _)
    refine Row.rename_rename ?_
    rwa [(wellFormed.rowsHeld row stored).columns]

/-! ## More columns -/

/-- A column that is added stands behind the others, whose keys stay where they are. -/
theorem addColumn_extends (wellFormed : relation.WellFormed) (passed : relation.Passed)
    (plain : column.primaryKey = false ∧ column.unique = false)
    (allowed : relation.rows ≠ [] → column.checkValue relation.schema.name value = .ok ())
    (valid : (relation.schema.addColumn column).check = .ok ())
    (rewritten : relation.rewrite (relation.schema.addColumn column)
      (fun row => row.set column.name value) = .ok changed) :
    changed.tuples = relation.tuples.map (· ++ [value]) ∧ changed.nextId = relation.nextId ∧
      ∀ position < relation.schema.columns.length, ∀ searched,
        changed.lookup position searched = relation.lookup position searched := by
  obtain ⟨schema, formed⟩ := addColumn_wellFormed wellFormed plain allowed valid rewritten
  have distinct := Table.columnNames_nodup valid
  have longer : ∀ row ∈ relation.rows,
      (relation.schema.addColumn column).tuple (row.set column.name value) =
        relation.schema.tuple row ++ [value] := fun row stored =>
    Table.tuple_addColumn distinct (wellFormed.rowsHeld row stored).columns
  have extended : changed.tuples = relation.tuples.map (· ++ [value]) := by
    rw [tuples, (rewrite_spec rewritten).2.1, schema, tuples, List.map_map, List.map_map]
    exact List.map_congr_left longer
  refine ⟨extended, nextId_rewrite distinct passed (fun row stored => ?_) rewritten, ?_⟩
  · rw [longer row stored, Table.countedValue?_addColumn plain.1 valid Table.length_tuple]
  · intro position former searched
    refine lookup_congr fun key =>
      positionsOf_congr wellFormed.indexed formed.indexed (fun place => ?_) key
    rw [keyAt_eq_tuples, keyAt_eq_tuples, extended, List.getElem?_map]
    cases stored : relation.tuples[place]? with
    | none => rfl
    | some tuple =>
        obtain ⟨row, -, rfl⟩ := List.mem_map.mp (List.mem_of_getElem? stored)
        rw [Option.map_some, Option.bind_some, Option.bind_some,
          List.getElem?_append_left (by rwa [Table.length_tuple])]

end Relation

/-! ## Stores -/

namespace Store

variable {store after : Store} {name source target : String} {column : Column}

theorem relation_replace_self {changed : Relation} (named : changed.schema.name = name)
    (former : String) : (store.replace former changed).relation name = .ok changed :=
  relation_replace.mpr (.inl ⟨named.symm, rfl⟩)

/-- A table under another name, and the way back. -/
theorem renameTable_back (wellFormed : store.WellFormed)
    (altered : store.renameTable name target = .ok after) :
    ∃ relation changed restored again, store.relation name = .ok relation ∧
      after.relation target = .ok changed ∧
      changed.schema = { relation.schema with name := target } ∧ relation.Matches changed ∧
      after.renameTable target name = .ok restored ∧ restored.relation name = .ok again ∧
      relation.Restores again := by
  obtain ⟨relation, found, -, gone, held⟩ := relation_renamed altered
  have formed := wellFormed.relations _ (relation_eq_ok_iff.mp found)
  have named : relation.schema.name = name := wellFormed.named _ (relation_eq_ok_iff.mp found)
  exact ⟨relation, _, _, _, found, held, rfl, Relation.renameTable_matches formed,
    renameTable_eq_ok_iff.mpr ⟨_, held, gone, rfl⟩, relation_replace_self rfl target,
    .of_rows formed.indexed Relation.build_indexed (by rw [← named]; rfl) rfl rfl⟩

/-- A table with a column under another name, and the way back. -/
theorem renameColumn_back (wellFormed : store.WellFormed)
    (passed : ∀ relation, store.relation name = .ok relation → relation.Passed)
    (altered : store.renameColumn name source target = .ok after) :
    ∃ relation changed restored again, store.relation name = .ok relation ∧
      after.relation name = .ok changed ∧
      changed.schema = relation.schema.renameColumn source target ∧ relation.Matches changed ∧
      after.renameColumn name target source = .ok restored ∧ restored.relation name = .ok again ∧
      relation.Restores again := by
  obtain ⟨relation, changed, found, present, fresh, rewritten, rfl⟩ :=
    renameColumn_eq_ok_iff.mp altered
  have formed := wellFormed.relations _ (relation_eq_ok_iff.mp found)
  have named : relation.schema.name = name := wellFormed.named _ (relation_eq_ok_iff.mp found)
  have counted := passed relation found
  obtain ⟨schema, -⟩ := Relation.renameColumn_wellFormed formed fresh rewritten
  have held : (store.replace name changed).relation name = .ok changed :=
    relation_replace_self (by rw [schema]; exact named) name
  obtain ⟨again, back, restoredSchema, -⟩ := Relation.rewrite_exists changed
    (changed.schema.renameColumn target source) fun row => row.rename target source
  have restores := Relation.renameColumn_restores formed counted present fresh rewritten back
  refine ⟨relation, changed, _, again, found, held, schema,
    Relation.renameColumn_matches formed counted fresh rewritten,
    renameColumn_eq_ok_iff.mpr ⟨changed, again, held, ?_, ?_, back, rfl⟩,
    relation_replace_self (by rw [restores.schema, named]) name, restores⟩
  · rw [schema]
    exact Table.present_renameColumn present
  · rw [schema]
    exact Table.absent_renameColumn present fresh

theorem addColumn_extended (wellFormed : store.WellFormed)
    (passed : ∀ relation, store.relation name = .ok relation → relation.Passed)
    (altered : store.addColumn name column = .ok after) :
    ∃ relation changed, store.relation name = .ok relation ∧ after.relation name = .ok changed ∧
      changed.tuples = relation.tuples.map (· ++ [column.default.getD .null]) ∧
      changed.nextId = relation.nextId ∧
      ∀ position < relation.schema.columns.length, ∀ searched,
        changed.lookup position searched = relation.lookup position searched := by
  obtain ⟨relation, changed, found, -, plain, allowed, valid, rewritten, rfl⟩ :=
    addColumn_eq_ok_iff.mp altered
  have formed := wellFormed.relations _ (relation_eq_ok_iff.mp found)
  have named : relation.schema.name = name := wellFormed.named _ (relation_eq_ok_iff.mp found)
  obtain ⟨schema, -⟩ := Relation.addColumn_wellFormed formed plain allowed valid rewritten
  exact ⟨relation, changed, found, relation_replace_self (by rw [schema]; exact named) name,
    Relation.addColumn_extends formed (passed relation found) plain allowed valid rewritten⟩

end Store

namespace Database

variable {database : Database} {request : Request} {parsed : Language.ParsedStatement}
variable {call : Call} {outcome : Outcome} {plan : Plan} {store : Store}

/-- Whoever asks for the change of a schema, and may do so, gets what its plan does. -/
theorem recovers_of_planned {alter : Language.Alter} {name : String} {relation again : Relation}
    (wellFormed : database.WellFormed)
    (planned : ∀ parameters, planStatement { store := database.state.store, parameters }
      (.alter alter) = .ok plan)
    (ran : plan.run database.state.store = .ok (store, outcome))
    (found : store.relation name = .ok again) (restores : relation.Restores again) :
    database.Recovers (.alter alter) name relation := by
  intro request parsed read alters allowed
  have performed : database.perform request = (database.withStore store, .ok outcome) := by
    rw [perform_eq, parse_eq, read]
    change database.performParsed parsed request = _
    rw [performParsed_eq, allowed, alters]
    change database.runPlanned (.alter alter) request.parameters = _
    rw [runPlanned_eq wellFormed, planned, ok_bind, ran]
  rw [performed]
  exact ⟨outcome, again, rfl, found, restores⟩

/-- The change of a schema that goes well has been planned, and made in the store. -/
theorem altered_of_perform (wellFormed : database.WellFormed)
    (read : Language.parse request.sql = .ok parsed) {alter : Language.Alter}
    (alters : parsed.statement = .alter alter) (ran : (database.perform request).2 = .ok outcome) :
    ∃ plan, planAlter { store := database.state.store, parameters := request.parameters } alter =
        .ok plan ∧
      plan.run database.state.store = .ok ((database.perform request).1.state.store, outcome) := by
  obtain ⟨plan, store, planned, wrote, done⟩ | rolled | ⟨control, -⟩ :=
    perform_tables wellFormed read ran
  · rw [alters] at planned
    rw [done]
    exact ⟨plan, planned, wrote⟩
  · rw [alters] at rolled
    cases rolled
  · rw [alters] at control
    simp [Statement.type] at control

/-- Whoever asks for the change of a schema that goes well: a table under another name, and one
with a column under another name, holds the same values, counts on from the same number and answers
every lookup as it did. As soon as it is named back, it is the table that it was, with its indexes.
A column that is added stands behind the others, in every row with its default, and lookups in the
other columns are answered as they were. -/
theorem altered_tables (reached : database.Reachable) (asked : call.request? = some request)
    (read : Language.parse request.sql = .ok parsed)
    (ran : (database.perform request).2 = .ok outcome) {name : String}
    {action : Language.AlterAction} (alters : parsed.statement = .alter ⟨name, action⟩) :
    ∃ relation, database.state.store.relation name = .ok relation ∧
      (∀ target, action = .renameTable target →
        ∃ changed, (database.step call).state.store.relation target = .ok changed ∧
          changed.schema = { relation.schema with name := target } ∧ relation.Matches changed ∧
          (database.step call).Recovers (.alter ⟨target, .renameTable name⟩) name relation) ∧
      (∀ source target, action = .renameColumn source target →
        ∃ changed, (database.step call).state.store.relation name = .ok changed ∧
          changed.schema = relation.schema.renameColumn source target ∧
          relation.Matches changed ∧
          (database.step call).Recovers (.alter ⟨name, .renameColumn target source⟩) name
            relation) ∧
      ∀ definition, action = .addColumn definition →
        ∃ given changed,
          definition.default.mapM (PlanContext.constant
            { store := database.state.store, parameters := request.parameters }) = .ok given ∧
          (database.step call).state.store.relation name = .ok changed ∧
          changed.tuples = relation.tuples.map
            (· ++ [(given.map (Value.coerce definition.type)).getD .null]) ∧
          changed.nextId = relation.nextId ∧
          ∀ position < relation.schema.columns.length, ∀ searched,
            changed.lookup position searched = relation.lookup position searched := by
  have wellFormed := reached.wellFormed
  have stepFormed : (database.step call).WellFormed := step_wellFormed wellFormed
  have passed : ∀ relation, database.state.store.relation name = .ok relation → relation.Passed :=
    fun relation found => reached.relation_holds Relation.passed_invariant found
  obtain ⟨plan, planned, wrote⟩ := altered_of_perform wellFormed read alters ran
  rw [← (step_request asked).1] at wrote
  generalize database.step call = after at wrote stepFormed ⊢
  cases action with
  | renameTable target =>
      cases pure_eq_ok_iff.mp planned
      obtain ⟨_, altered, made⟩ := bind_eq_ok_iff.mp wrote
      cases made
      obtain ⟨relation, changed, restored, again, found, held, schema, kept, back, foundAgain,
        restores⟩ := Store.renameTable_back wellFormed.current.store altered
      refine ⟨relation, found, ?_, ?_, ?_⟩
      · rintro _ ⟨⟩
        exact ⟨changed, held, schema, kept, recovers_of_planned stepFormed (fun _ => rfl)
          (bind_eq_ok_iff.mpr ⟨restored, back, rfl⟩) foundAgain restores⟩
      · rintro source target ⟨⟩
      · rintro definition ⟨⟩
  | renameColumn source target =>
      cases pure_eq_ok_iff.mp planned
      obtain ⟨_, altered, made⟩ := bind_eq_ok_iff.mp wrote
      cases made
      obtain ⟨relation, changed, restored, again, found, held, schema, kept, back, foundAgain,
        restores⟩ := Store.renameColumn_back wellFormed.current.store passed altered
      refine ⟨relation, found, ?_, ?_, ?_⟩
      · rintro target ⟨⟩
      · rintro _ _ ⟨⟩
        exact ⟨changed, held, schema, kept, recovers_of_planned stepFormed (fun _ => rfl)
          (bind_eq_ok_iff.mpr ⟨restored, back, rfl⟩) foundAgain restores⟩
      · rintro definition ⟨⟩
  | addColumn definition =>
      simp only [planAlter, planColumn, bind_eq_ok_iff, guarded_eq_ok_iff,
        pure_eq_ok_iff] at planned
      obtain ⟨column, ⟨given, evaluated, rfl⟩, -, made⟩ := planned
      cases made
      obtain ⟨_, altered, made⟩ := bind_eq_ok_iff.mp wrote
      cases made
      obtain ⟨relation, changed, found, held, extended⟩ :=
        Store.addColumn_extended wellFormed.current.store passed altered
      refine ⟨relation, found, ?_, ?_, ?_⟩
      · rintro target ⟨⟩
      · rintro source target ⟨⟩
      · rintro _ ⟨⟩
        exact ⟨given, changed, evaluated, held, extended⟩

/-- A column that is unique and in an index gets another name, and its own back. -/
theorem altered_and_back :
    let database := fromTexts ["CREATE TABLE t (a TEXT UNIQUE, b TEXT)",
      "CREATE INDEX i ON t (b, a)", "INSERT INTO t (a, b) VALUES ('x', 'y'), ('z', NULL)"]
    let request : Request :=
      { sql := "ALTER TABLE t RENAME COLUMN a TO c", parameters := [], caller := .local }
    let back : Request :=
      { sql := "ALTER TABLE t RENAME COLUMN c TO a", parameters := [], caller := .local }
    let renamed := database.step (.execute request)
    (database.perform request).2 = .ok (.tableAltered "t") ∧
    ∃ relation changed again, database.state.store.relation "t" = .ok relation ∧
      renamed.state.store.relation "t" = .ok changed ∧ relation.Matches changed ∧
      (renamed.perform back).1.state.store.relation "t" = .ok again ∧ relation.Restores again := by
  intro database request back renamed
  have ran : (database.perform request).2 = .ok (.tableAltered "t") := by decide +kernel
  have form : (Language.parse request.sql).toOption.bind (·.statement.columnRenaming?) =
      some ("t", "a", "c") := by decide +kernel
  have backForm : (Language.parse back.sql).toOption.bind (fun parsed =>
      if renamed.check parsed back = .ok () then parsed.statement.columnRenaming? else none) =
      some ("t", "c", "a") := by decide +kernel
  have reached : database.Reachable := fromTexts_reachable
  clear_value database request back
  obtain ⟨parsed, found, renames⟩ := Option.bind_eq_some_iff.mp form
  obtain ⟨other, otherFound, allowed, renamesBack⟩ : ∃ other,
      (Language.parse back.sql).toOption = some other ∧ renamed.check other back = .ok () ∧
      other.statement.columnRenaming? = some ("t", "c", "a") := by
    simpa [Option.bind_eq_some_iff] using backForm
  obtain ⟨relation, was, -, changes, -⟩ := @altered_tables database request parsed
    (.execute request) _ reached rfl (eq_ok_of_toOption found) ran _ _
    (Statement.of_columnRenaming? renames)
  obtain ⟨changed, held, -, kept, recovers⟩ := changes "a" "c" rfl
  obtain ⟨_, again, -, foundAgain, restores⟩ := recovers back other (eq_ok_of_toOption otherFound)
    (Statement.of_columnRenaming? renamesBack) allowed
  exact ⟨ran, relation, changed, again, was, held, kept, foundAgain, restores⟩

end Database

end Coffer
