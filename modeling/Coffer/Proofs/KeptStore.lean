import Coffer.Proofs.Kept

namespace Coffer

/-! # Stores as they are kept

A statement has the same plan for a store and for what a snapshot keeps of it. The plan gives
the same outcome, or fails for the same reason, and leaves stores of which the same is kept.
-/

namespace Directory

variable {α β γ : Type} {directory : Directory α} {image : α → β} {further : β → γ}
variable {name : String} {content : α}

theorem place_mapped {entries : List (String × α)} :
    place name (image content) (entries.map fun entry => (entry.1, image entry.2)) =
      (place name content entries).map fun entry => (entry.1, image entry.2) := by
  induction entries with
  | nil => rfl
  | cons entry others ih =>
      rw [List.map_cons, place, place, ih]
      split
      · rfl
      · split <;> rfl

theorem insert_mapped :
    (directory.mapped image).insert name (image content) =
      (directory.insert name content).mapped image :=
  ext_entries place_mapped

theorem erase_mapped :
    (directory.mapped image).erase name = (directory.erase name).mapped image :=
  ext_entries List.filter_map

theorem mapped_mapped :
    (directory.mapped image).mapped further = directory.mapped (further ∘ image) :=
  ext_entries (List.map_map ..)

end Directory

namespace Table

variable {table : Table} {column : Column}

theorem checkColumns_append {name : String} {earlier : List String} {columns more : List Column}
    (valid : checkColumns name earlier columns = .ok ()) :
    checkColumns name earlier (columns ++ more) =
      checkColumns name ((columns.map Column.name).reverse ++ earlier) more := by
  induction columns generalizing earlier with
  | nil => rfl
  | cons column others ih =>
      simp only [checkColumns, guarded_eq_ok_iff, bind_eq_ok_iff] at valid
      obtain ⟨fresh, _, checked, rest⟩ := valid
      simp only [List.cons_append, checkColumns, if_neg fresh, checked, ok_bind, ih rest]
      simp

/-- Columns that passed the check do not matter for one that is added to them. -/
theorem check_addColumn_kept (valid : table.check = .ok ()) :
    (table.kept.addColumn column).check = (table.addColumn column).check := by
  have columns {table : Table} (valid : table.check = .ok ()) :
      checkColumns table.name [] table.columns = .ok () := by
    obtain ⟨-, distinct, checked⟩ := check_eq_ok_iff.mp valid
    exact checkColumns_eq_ok_iff.mpr ⟨fun _ _ => List.not_mem_nil, distinct, checked⟩
  have names : table.kept.columns.map Column.name = table.columns.map Column.name :=
    columnNames_kept
  have count : (table.kept.columns ++ [column]).countP Column.primaryKey =
      (table.columns ++ [column]).countP Column.primaryKey := by
    rw [kept, List.countP_append, List.countP_append, List.countP_map]
    rfl
  have keptCheck := @checkColumns_append _ _ _ [column] (columns (check_kept valid))
  rw [names] at keptCheck
  have nonempty {columns : List Column} : (columns ++ [column]).isEmpty = false := by
    cases columns <;> rfl
  have name : table.kept.name = table.name := rfl
  rw [name] at keptCheck
  simp only [check, addColumn, nonempty, count, name]
  rw [checkColumns_append (columns valid), keptCheck]

end Table

namespace Store

variable {store : Store} {name : String} {relation : Relation}

/-- What a snapshot keeps of a store, with key indexes built anew. -/
def kept (store : Store) : Store :=
  ⟨store.relations.mapped Relation.kept⟩

theorem kept_kept : store.kept.kept = store.kept := by
  have same : Relation.kept ∘ Relation.kept = Relation.kept :=
    funext fun _ => Relation.kept_kept
  rw [kept, kept, Directory.mapped_mapped, same]

theorem kept_wellFormed (wellFormed : store.WellFormed) : store.kept.WellFormed := by
  have former {property : String × Relation → Prop}
      (holds : ∀ entry ∈ store.relations.entries, property (entry.1, entry.2.kept)) :
      ∀ entry ∈ store.kept.relations.entries, property entry :=
    List.forall_mem_map.mpr holds
  refine ⟨former wellFormed.named, former fun entry member => ?_, ?_⟩
  · exact Relation.kept_wellFormed (wellFormed.relations entry member)
  · have names : store.kept.indexNames = store.indexNames := by
      simp only [indexNames, tables, kept, Directory.mapped, List.map_map, List.flatMap_map]
      rfl
    rw [names]
    exact wellFormed.indexesDistinct

theorem kept_finite : store.kept.FiniteDefaults := by
  refine List.forall_mem_map.mpr fun entry _ => List.forall_mem_map.mpr fun column _ => ?_
  rintro value given x rfl
  exact (Option.filter_eq_some_iff.mp given).2

theorem relation_kept : store.kept.relation name = (store.relation name).map Relation.kept := by
  rw [Store.relation, kept, Directory.get?_mapped, Store.relation]
  cases store.relations.get? name <;> rfl

theorem table_kept : store.kept.table name = (store.table name).map Table.kept := by
  rw [table, relation_kept, table]
  cases store.relation name <;> rfl

theorem isSome_table?_kept : (store.kept.table? name).isSome = (store.table? name).isSome := by
  rw [table?, kept, Directory.get?_mapped, table?, Option.isSome_map, Option.isSome_map,
    Option.isSome_map]

theorem indexOwner?_kept {index : String} :
    store.kept.indexOwner? index = (store.indexOwner? index).map Table.kept := by
  have schemas : store.kept.tables = store.tables.map Table.kept := by
    rw [tables, kept, Directory.mapped, List.map_map, tables, List.map_map]
    rfl
  rw [indexOwner?, schemas, List.find?_map, indexOwner?]
  rfl

theorem put_kept : store.kept.put relation.kept = (store.put relation).kept :=
  congrArg Store.mk Directory.insert_mapped

theorem replace_kept :
    store.kept.replace name relation.kept = (store.replace name relation).kept := by
  have erased : Store.mk (store.kept.relations.erase name) =
      (Store.mk (store.relations.erase name)).kept := congrArg Store.mk Directory.erase_mapped
  rw [replace, erased, put_kept, replace]

section

variable {first second : Relation} {wanted table : Table}

/-- Relations of which the same is kept take the place of another one alike. -/
theorem replace_congr (same : first.kept = second.kept) :
    (store.kept.replace name first).kept = (store.replace name second).kept := by
  rw [← replace_kept, kept_kept, same, replace_kept]

theorem put_congr (same : first.kept = second.kept) :
    (store.kept.put first).kept = (store.put second).kept := by
  rw [← put_kept, kept_kept, same, put_kept]

theorem alter_kept (same : wanted.kept = table.kept) :
    (store.kept.alter name wanted).map kept = (store.alter name table).map kept := by
  have named : wanted.name = table.name := by simpa [Table.kept] using congrArg Table.name same
  have contains : store.kept.relations.contains table.name = store.relations.contains table.name :=
    Directory.contains_mapped
  rw [alter, alter, named, contains, relation_kept]
  split
  · rfl
  · cases store.relation name with
    | error error => rfl
    | ok relation =>
        exact congrArg Except.ok (replace_congr (Relation.kept_eq_kept_iff.mpr ⟨same, rfl, rfl⟩))

end

theorem create_kept {table : Table} :
    (store.kept.create table).map kept = (store.create table).map kept := by
  have contains : store.kept.relations.contains table.name = store.relations.contains table.name :=
    Directory.contains_mapped
  rw [create, create, contains]
  split
  · rfl
  · exact congrArg Except.ok (put_congr rfl)

theorem drop_kept : (store.kept.drop name).map kept = (store.drop name).map kept := by
  rw [drop, relation_kept, drop]
  cases store.relation name with
  | error error => rfl
  | ok relation =>
      refine congrArg Except.ok ?_
      have erased : Store.mk (store.kept.relations.erase name) =
          (Store.mk (store.relations.erase name)).kept := congrArg Store.mk Directory.erase_mapped
      rw [erased, kept_kept]

theorem createIndex_kept {index : Index} :
    (store.kept.createIndex name index).map kept = (store.createIndex name index).map kept := by
  rw [createIndex, relation_kept, createIndex]
  cases store.relation name with
  | error error => rfl
  | ok relation =>
      have schema : relation.kept.schema = relation.schema.kept := rfl
      have mapped : (Except.ok relation : Except Error Relation).map Relation.kept =
        .ok relation.kept := rfl
      simp only [mapped, ok_bind, schema, Table.position_kept, Relation.areUnique_kept]
      cases index.columns.mapM relation.schema.position with
      | error error => rfl
      | ok columns =>
          simp only [ok_bind]
          split
          · rfl
          · exact alter_kept (by simp [Table.kept, Table.addIndex, Column.kept_kept])

theorem addColumn_kept {column : Column} (wellFormed : store.WellFormed) :
    (store.kept.addColumn name column).map kept = (store.addColumn name column).map kept := by
  rw [addColumn, relation_kept, addColumn]
  cases found : store.relation name with
  | error error => rfl
  | ok relation =>
      have valid := (wellFormed.relations _ (relation_eq_ok_iff.mp found)).schemaValid
      have schema : relation.kept.schema = relation.schema.kept := rfl
      have rows : relation.kept.rows = relation.rows := rfl
      have named : relation.schema.kept.name = relation.schema.name := rfl
      have mapped : (Except.ok relation : Except Error Relation).map Relation.kept =
        .ok relation.kept := rfl
      simp only [mapped, ok_bind, schema, rows, named, Table.position?_kept,
        Table.check_addColumn_kept valid]
      have rest : (do
            let _ ← (relation.schema.addColumn column).check
            let changed ← relation.kept.rewrite (relation.schema.kept.addColumn column)
              fun row => row.set column.name (column.default.getD .null)
            return store.kept.replace name changed).map kept =
          (do
            let _ ← (relation.schema.addColumn column).check
            let changed ← relation.rewrite (relation.schema.addColumn column)
              fun row => row.set column.name (column.default.getD .null)
            return store.replace name changed).map kept := by
        cases (relation.schema.addColumn column).check with
        | error error => rfl
        | ok _ =>
            have added : (relation.schema.kept.addColumn column).kept =
                (relation.schema.addColumn column).kept := by
              simp [Table.kept, Table.addColumn, Column.kept_kept]
            rw [ok_bind, ok_bind]
            exact bind_map_congr (Relation.rewrite_kept added)
              fun _ _ same => congrArg Except.ok (replace_congr same)
      split
      · rfl
      · split
        · rfl
        · split
          · cases column.checkValue relation.schema.name (column.default.getD .null) with
            | error error => rfl
            | ok _ => exact rest
          · exact rest

theorem renameTable_kept {target : String} :
    (store.kept.renameTable name target).map kept = (store.renameTable name target).map kept := by
  rw [renameTable, table_kept, renameTable]
  cases store.table name with
  | error error => rfl
  | ok table =>
      have mapped : (Except.ok table : Except Error Table).map Table.kept = .ok table.kept := rfl
      simp only [mapped, ok_bind, isSome_table?_kept]
      split
      · rfl
      · exact alter_kept (by simp [Table.kept, Column.kept_kept])

theorem renameColumn_kept {source target : String} :
    (store.kept.renameColumn name source target).map kept =
      (store.renameColumn name source target).map kept := by
  rw [renameColumn, relation_kept, renameColumn]
  cases store.relation name with
  | error error => rfl
  | ok relation =>
      have schema : relation.kept.schema = relation.schema.kept := rfl
      have named : relation.schema.kept.name = relation.schema.name := rfl
      have mapped : (Except.ok relation : Except Error Relation).map Relation.kept =
        .ok relation.kept := rfl
      simp only [mapped, ok_bind, schema, named, Table.position_kept, Table.position?_kept]
      cases relation.schema.position source with
      | error error => rfl
      | ok _ =>
          simp only [ok_bind]
          split
          · rfl
          · have renamed : (relation.schema.kept.renameColumn source target).kept =
                (relation.schema.renameColumn source target).kept := by
              simp [Table.kept, Table.renameColumn, Column.kept, Option.filter_filter]
            exact bind_map_congr (Relation.rewrite_kept renamed)
              fun _ _ same => congrArg Except.ok (replace_congr same)

theorem alterTable_kept {alteration : Alteration} (wellFormed : store.WellFormed) :
    (store.kept.alterTable name alteration).map kept =
      (store.alterTable name alteration).map kept := by
  cases alteration with
  | addColumn column => exact addColumn_kept wellFormed
  | renameTable target => exact renameTable_kept
  | renameColumn source target => exact renameColumn_kept

end Store

/-! ## Plans -/

section Planning

variable {store : Store} {parameters : List Value} {scope : Scope}

theorem Scope.ofTable_kept {table : Table} {asName : Option String} :
    Scope.ofTable table.kept asName = Scope.ofTable table asName := by
  rw [Scope.ofTable, Table.columnNames_kept, Scope.ofTable]
  rfl

theorem planTable_kept :
    planTable { store := store.kept, parameters } = planTable { store, parameters } := by
  funext reference
  rw [planTable, Store.table_kept, planTable]
  cases store.table reference.name with
  | error error => rfl
  | ok table =>
      have scope := @Scope.ofTable_kept table reference.asName
      exact congrArg (fun scope => Except.ok (Scoped.mk (.scan table.name reference.asName) scope))
        scope

theorem planJoin_kept :
    planJoin { store := store.kept, parameters } = planJoin { store, parameters } := by
  funext left join
  rw [planJoin, planTable_kept]
  rfl

theorem planSources_kept :
    planSources { store := store.kept, parameters } = planSources { store, parameters } := by
  funext select
  rw [planSources, planTable_kept, planJoin_kept]
  rfl

theorem planOrdering_kept :
    planOrdering { store := store.kept, parameters } = planOrdering { store, parameters } := by
  funext scope visible columns terms
  induction terms generalizing columns with
  | nil => rfl
  | cons term others ih =>
      simp only [planOrdering, ih]
      rfl

/-- Only the tables that a query names are looked up in the store. -/
theorem planSelect_kept :
    planSelect { store := store.kept, parameters } = planSelect { store, parameters } := by
  funext select
  rw [planSelect, planSources_kept, planOrdering_kept]
  rfl

theorem checkTargets_kept {table : Table} {earlier columns : List String} :
    checkTargets table.kept earlier columns = checkTargets table earlier columns := by
  induction columns generalizing earlier with
  | nil => rfl
  | cons column others ih => rw [checkTargets, Table.position_kept, ih, checkTargets]

theorem planInsert_kept :
    planInsert { store := store.kept, parameters } = planInsert { store, parameters } := by
  funext insert
  rw [planInsert, Store.table_kept, planInsert]
  cases store.table insert.table with
  | error error => rfl
  | ok table =>
      have mapped : (Except.ok table : Except Error Table).map Table.kept = .ok table.kept := rfl
      simp only [mapped, ok_bind, checkTargets_kept, planSelect_kept]
      rfl

theorem planUpdate_kept :
    planUpdate { store := store.kept, parameters } = planUpdate { store, parameters } := by
  funext update
  rw [planUpdate, Store.table_kept, planUpdate]
  cases store.table update.table with
  | error error => rfl
  | ok table =>
      have mapped : (Except.ok table : Except Error Table).map Table.kept = .ok table.kept := rfl
      have assignment : planAssignment { store := store.kept, parameters } table.kept =
          planAssignment { store, parameters } table := by
        funext scope assignment
        rw [planAssignment, Table.position_kept, planAssignment]
        rfl
      simp only [mapped, ok_bind, Scope.ofTable_kept, assignment]
      rfl

theorem planDelete_kept :
    planDelete { store := store.kept, parameters } = planDelete { store, parameters } := by
  funext delete
  rw [planDelete, Store.table_kept, planDelete]
  cases store.table delete.table with
  | error error => rfl
  | ok table =>
      have mapped : (Except.ok table : Except Error Table).map Table.kept = .ok table.kept := rfl
      simp only [mapped, ok_bind, Scope.ofTable_kept]
      rfl

/-- A statement has the same plan, or cannot be planned for the same reason. -/
theorem planStatement_kept {statement : Language.Statement} :
    planStatement { store := store.kept, parameters } statement =
      planStatement { store, parameters } statement := by
  cases statement with
  | insert insert => exact congrFun planInsert_kept insert
  | update update => exact congrFun planUpdate_kept update
  | delete delete => exact congrFun planDelete_kept delete
  | select select => exact congrArg (Except.map Plan.query) (congrFun planSelect_kept select)
  | _ => rfl

end Planning

theorem QueryPlan.run_kept {store : Store} {plan : QueryPlan} :
    plan.run store.kept = plan.run store := by
  induction plan with
  | scan table asName =>
      rw [QueryPlan.run, Store.relation_kept, QueryPlan.run]
      cases store.relation table with
      | error error => rfl
      | ok relation =>
          have names : relation.kept.schema.columnNames = relation.schema.columnNames :=
            Table.columnNames_kept
          have set : RowSet.mk relation.kept.schema.columnNames relation.kept.tuples =
              ⟨relation.schema.columnNames, relation.tuples⟩ := by
            rw [names, Relation.tuples_kept]
          exact congrArg Except.ok set
  | nothing => rfl
  | values rows => rfl
  | join kind predicate left right leftSame rightSame =>
      rw [QueryPlan.run, leftSame, rightSame, QueryPlan.run]
  | _ => simp only [QueryPlan.run, *]

/-- What of a result is kept: the outcome, and what is kept of the store. -/
def Plan.keptResult : Store × Outcome → Store × Outcome :=
  Prod.map Store.kept id

theorem Plan.run_kept {plan : Plan} {store : Store} (wellFormed : store.WellFormed)
    (finite : store.FiniteDefaults) :
    (plan.run store.kept).map keptResult = (plan.run store).map keptResult := by
  have finish {first second : Except Error Store} {outcome : Outcome}
      (same : first.map Store.kept = second.map Store.kept) :
      (first >>= fun after => pure (after, outcome)).map keptResult =
        (second >>= fun after => pure (after, outcome)).map keptResult :=
    bind_map_congr same fun _ _ kept => congrArg (fun after => Except.ok (after, outcome)) kept
  have unchanged {outcome : Outcome} :
      keptResult (store.kept, outcome) = keptResult (store, outcome) :=
    congrArg (·, outcome) Store.kept_kept
  have relationKept {relation : Relation} :
      (Except.ok relation : Except Error Relation).map Relation.kept = .ok relation.kept := rfl
  have located {table : String} {relation : Relation}
      (found : store.relation table = .ok relation) : relation.WellFormed :=
    wellFormed.relations _ (Store.relation_eq_ok_iff.mp found)
  cases plan with
  | createTable schema ifNotExists =>
      rw [Plan.run, Store.isSome_table?_kept, Plan.run]
      split
      · exact congrArg Except.ok unchanged
      · exact finish Store.create_kept
  | dropTable table ifExists =>
      have absent : (store.kept.table? table).isNone = (store.table? table).isNone := by
        rw [← Option.not_isSome, Store.isSome_table?_kept, Option.not_isSome]
      rw [Plan.run, absent, Plan.run]
      split
      · exact congrArg Except.ok unchanged
      · exact finish Store.drop_kept
  | createIndex table index ifNotExists =>
      rw [Plan.run, Store.indexOwner?_kept, Option.isSome_map, Plan.run]
      split
      · split
        · exact congrArg Except.ok unchanged
        · rfl
      · exact finish Store.createIndex_kept
  | dropIndex index ifExists =>
      rw [Plan.run, Store.indexOwner?_kept, Plan.run]
      cases store.indexOwner? index with
      | none =>
          dsimp only [Option.map]
          split
          · exact congrArg Except.ok unchanged
          · rfl
      | some owner =>
          exact finish (Store.alter_kept (by simp [Table.kept, Table.removeIndex, Column.kept_kept]))
  | alterTable table alteration => exact finish (Store.alterTable_kept wellFormed)
  | insert table columns resolution source =>
      rw [Plan.run, Store.relation_kept, QueryPlan.run_kept, Plan.run]
      cases found : store.relation table with
      | error error => rfl
      | ok relation =>
          rw [relationKept, ok_bind, ok_bind]
          cases source.run store with
          | error error => rfl
          | ok set =>
              rw [ok_bind, ok_bind]
              refine bind_map_congr (insertAll_kept (located found) (finite.schema found))
                fun first second same => ?_
              obtain ⟨alike, count, lastId⟩ := Inserted.mk.inj same
              have replaced := @Store.replace_congr store table _ _ alike
              rw [count, lastId]
              exact congrArg (fun after => Except.ok (after, _)) replaced
  | update table filter assignments resolution =>
      rw [Plan.run, Store.relation_kept, Plan.run]
      cases found : store.relation table with
      | error error => rfl
      | ok relation =>
          rw [relationKept, ok_bind, ok_bind]
          refine bind_map_congr (updateAll_kept (located found)) fun first second same => ?_
          obtain ⟨updated, count⟩ := first
          obtain ⟨other, others⟩ := second
          obtain ⟨alike, rfl⟩ := Prod.mk.inj same
          exact congrArg (fun after => Except.ok (after, Outcome.updated count))
            (Store.replace_congr alike)
  | delete table filter =>
      rw [Plan.run, Store.relation_kept, Plan.run]
      cases store.relation table with
      | error error => rfl
      | ok relation =>
          rw [relationKept, ok_bind, ok_bind]
          obtain ⟨alike, count⟩ := Prod.mk.inj (@deleteAll_kept relation filter)
          have same : (relation.kept.deleteAll filter).2 = (relation.deleteAll filter).2 := count
          have replaced := @Store.replace_congr store table _ _ alike
          dsimp only
          rw [same]
          exact congrArg (fun after => Except.ok (after, _)) replaced
  | query plan =>
      rw [Plan.run, QueryPlan.run_kept, Plan.run]
      cases plan.run store with
      | error error => rfl
      | ok set => exact congrArg Except.ok unchanged

end Coffer
