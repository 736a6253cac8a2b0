import Mathlib.Data.List.Nodup
import Mathlib.Data.List.Pairwise
import Coffer.Change.Execution
import Coffer.Proofs.Alteration
import Coffer.Proofs.Directory
import Coffer.Proofs.Mutation

namespace Coffer

/-! # Stores at all times

Relations stand under the names of their tables, each of them is well-formed, and the
indexes of all tables have names of their own. Every plan keeps it so.
-/

/-- The names of the indexes of a table. -/
def Table.indexNames (table : Table) : List String :=
  table.indexes.map Index.name

namespace Store

variable {store after : Store} {relation changed : Relation} {schema : Table}
variable {name target : String}

/-- The names of the indexes of all tables. -/
def indexNames (store : Store) : List String :=
  store.tables.flatMap Table.indexNames

structure WellFormed (store : Store) : Prop where
  named : ∀ entry ∈ store.relations.entries, entry.2.schema.name = entry.1
  relations : ∀ entry ∈ store.relations.entries, entry.2.WellFormed
  indexesDistinct : store.indexNames.Nodup

theorem relation_eq_ok_iff :
    store.relation name = .ok relation ↔ (name, relation) ∈ store.relations.entries := by
  rw [Store.relation, ← Directory.get?_eq_some_iff]
  cases store.relations.get? name <;> simp

theorem relation_eq_error_iff :
    store.relation name = .error (.tableNotFound name) ↔
      store.relations.contains name = false := by
  rw [Store.relation, Directory.contains]
  cases store.relations.get? name <;> simp

theorem isSome_table? : (store.table? name).isSome = store.relations.contains name :=
  Option.isSome_map

/-- Index names are distinct in each table, and from one table to another. -/
theorem indexesDistinct_iff :
    store.indexNames.Nodup ↔
      (∀ entry ∈ store.relations.entries, entry.2.schema.indexNames.Nodup) ∧
      ∀ first ∈ store.relations.entries, ∀ second ∈ store.relations.entries,
        first.1 ≠ second.1 →
        ∀ index ∈ first.2.schema.indexNames, index ∉ second.2.schema.indexNames := by
  rw [indexNames, tables, List.flatMap_map, List.nodup_flatMap]
  refine and_congr_right fun _ => ⟨fun apart => ?_, fun apart => ?_⟩
  · intro first firstMember second secondMember differ index firstIndex secondIndex
    have symmetric : Std.Symm
        (Function.onFun List.Disjoint fun entry : String × Relation => entry.2.schema.indexNames) :=
      ⟨fun _ _ disjoint index firstIndex secondIndex => disjoint secondIndex firstIndex⟩
    have disjoint := apart.forall firstMember secondMember fun same => differ (congrArg _ same)
    exact disjoint firstIndex secondIndex
  · refine List.Pairwise.imp_of_mem ?_ store.relations.ordered
    intro first second firstMember secondMember before index firstIndex secondIndex
    have differ : first.1 ≠ second.1 := fun same => String.lt_irrefl _ (same ▸ before)
    exact apart first firstMember second secondMember differ index firstIndex secondIndex

theorem empty_wellFormed : Store.empty.WellFormed :=
  ⟨by simp [Store.empty, Directory.empty], by simp [Store.empty, Directory.empty],
    by simp [indexNames, tables, Store.empty, Directory.empty]⟩

theorem erase_wellFormed (wellFormed : store.WellFormed) :
    (Store.mk (store.relations.erase name)).WellFormed := by
  obtain ⟨own, apart⟩ := indexesDistinct_iff.mp wellFormed.indexesDistinct
  have former : ∀ entry ∈ (store.relations.erase name).entries, entry ∈ store.relations.entries :=
    fun entry member => (Directory.mem_erase_iff.mp member).1
  refine ⟨?_, ?_, indexesDistinct_iff.mpr ⟨?_, ?_⟩⟩
  · exact fun entry member => wellFormed.named entry (former entry member)
  · exact fun entry member => wellFormed.relations entry (former entry member)
  · exact fun entry member => own entry (former entry member)
  · exact fun first firstMember second secondMember =>
      apart first (former first firstMember) second (former second secondMember)

/-- A relation may be put beside others that have no index of the same name. -/
theorem put_wellFormed (wellFormed : store.WellFormed) (valid : relation.WellFormed)
    (own : relation.schema.indexNames.Nodup)
    (apart : ∀ entry ∈ store.relations.entries, entry.1 ≠ relation.schema.name →
      ∀ index ∈ entry.2.schema.indexNames, index ∉ relation.schema.indexNames) :
    (store.put relation).WellFormed := by
  obtain ⟨formerOwn, formerApart⟩ := indexesDistinct_iff.mp wellFormed.indexesDistinct
  refine ⟨?_, ?_, indexesDistinct_iff.mpr ⟨?_, ?_⟩⟩
  · intro entry member
    rcases Directory.mem_insert_iff.mp member with rfl | ⟨former, -⟩
    · rfl
    · exact wellFormed.named entry former
  · intro entry member
    rcases Directory.mem_insert_iff.mp member with rfl | ⟨former, -⟩
    · exact valid
    · exact wellFormed.relations entry former
  · intro entry member
    rcases Directory.mem_insert_iff.mp member with rfl | ⟨former, -⟩
    · exact own
    · exact formerOwn entry former
  · intro first firstMember second secondMember differ index firstIndex secondIndex
    rcases Directory.mem_insert_iff.mp firstMember with rfl | ⟨firstFormer, firstApart⟩ <;>
      rcases Directory.mem_insert_iff.mp secondMember with rfl | ⟨secondFormer, secondApart⟩
    · exact differ rfl
    · exact apart second secondFormer secondApart index secondIndex firstIndex
    · exact apart first firstFormer firstApart index firstIndex secondIndex
    · exact formerApart first firstFormer second secondFormer differ index firstIndex secondIndex

/-- The relation of a table may give way to one whose indexes are new or were its own. -/
theorem replace_wellFormed (wellFormed : store.WellFormed) (valid : changed.WellFormed)
    (own : changed.schema.indexNames.Nodup)
    (apart : ∀ entry ∈ store.relations.entries, entry.1 ≠ name →
      ∀ index ∈ entry.2.schema.indexNames, index ∉ changed.schema.indexNames) :
    (store.replace name changed).WellFormed := by
  refine put_wellFormed (erase_wellFormed wellFormed) valid own ?_
  intro entry member _
  obtain ⟨former, different⟩ := Directory.mem_erase_iff.mp member
  exact apart entry former different

/-- The relation of a table may give way to one that has no more indexes. -/
theorem replace_wellFormed_of_sublist (wellFormed : store.WellFormed)
    (found : store.relation name = .ok relation) (valid : changed.WellFormed)
    (fewer : changed.schema.indexNames.Sublist relation.schema.indexNames) :
    (store.replace name changed).WellFormed := by
  obtain ⟨own, apart⟩ := indexesDistinct_iff.mp wellFormed.indexesDistinct
  have present := relation_eq_ok_iff.mp found
  refine replace_wellFormed wellFormed valid ((own _ present).sublist fewer) ?_
  intro entry member different index listed
  exact fun added => apart entry member _ present different index listed (fewer.subset added)

theorem alter_eq_ok_iff :
    store.alter name schema = .ok after ↔
      (schema.name ≠ name → store.relations.contains schema.name = false) ∧
      ∃ relation, store.relation name = .ok relation ∧
        after = store.replace name (relation.alter schema) := by
  simp only [Store.alter, guarded_eq_ok_iff, bind_eq_ok_iff, pure_eq_ok_iff, replace]
  refine and_congr ?_ (exists_congr fun relation => and_congr_right fun _ => eq_comm)
  simp

theorem put_new_wellFormed (wellFormed : store.WellFormed) (valid : schema.check = .ok ())
    (bare : schema.indexes = []) : (store.put (.new schema)).WellFormed := by
  refine put_wellFormed wellFormed ?_
    (by simp [Relation.new, Relation.build, Table.indexNames, bare])
    (by simp [Relation.new, Relation.build, Table.indexNames, bare])
  exact Relation.WellFormed.build valid (by simp [bare]) (by simp)
    fun column _ => List.Pairwise.nil

theorem indexOwner?_eq_none_iff {index : String} :
    store.indexOwner? index = none ↔
      ∀ entry ∈ store.relations.entries, index ∉ entry.2.schema.indexNames := by
  simp [indexOwner?, tables, Table.indexNames]

/-- The owner of an index is a table of the store. -/
theorem relation_of_indexOwner? {index : String} {owner : Table} (wellFormed : store.WellFormed)
    (found : store.indexOwner? index = some owner) :
    ∃ relation, store.relation owner.name = .ok relation ∧ relation.schema = owner := by
  obtain ⟨entry, member, rfl⟩ := List.mem_map.mp (List.mem_of_find?_eq_some found)
  refine ⟨entry.2, relation_eq_ok_iff.mpr ?_, rfl⟩
  rw [wellFormed.named entry member]
  exact member

/-- An index may be made over columns that there are, and a unique one over rows that are apart. -/
theorem createIndex_eq_ok_iff {index : Index} :
    store.createIndex name index = .ok after ↔
      ∃ relation columns, store.relation name = .ok relation ∧
        index.columns.mapM relation.schema.position = .ok columns ∧
        (index.unique = true → relation.areUnique columns = true) ∧
        store.alter name (relation.schema.addIndex index) = .ok after := by
  simp only [createIndex, bind_eq_ok_iff, guarded_eq_ok_iff, Bool.and_eq_true,
    Bool.not_eq_eq_eq_not, Bool.not_true, not_and, Bool.not_eq_false]
  constructor
  · rintro ⟨relation, found, columns, located, apart, altered⟩
    exact ⟨relation, columns, found, located, apart, altered⟩
  · rintro ⟨relation, columns, found, located, apart, altered⟩
    exact ⟨relation, found, columns, located, apart, altered⟩

theorem createIndex_wellFormed {index : Index} (wellFormed : store.WellFormed)
    (fresh : store.indexOwner? index.name = none)
    (created : store.createIndex name index = .ok after) : after.WellFormed := by
  obtain ⟨relation, positions, found, located, free, altered⟩ := createIndex_eq_ok_iff.mp created
  obtain ⟨-, other, otherFound, rfl⟩ := alter_eq_ok_iff.mp altered
  cases found.symm.trans otherFound
  have present := relation_eq_ok_iff.mp found
  have absent := indexOwner?_eq_none_iff.mp fresh
  obtain ⟨own, apart⟩ := indexesDistinct_iff.mp wellFormed.indexesDistinct
  have names : (relation.schema.addIndex index).indexNames =
      relation.schema.indexNames ++ [index.name] := by simp [Table.addIndex, Table.indexNames]
  refine replace_wellFormed wellFormed ?_ ?_ ?_
  · exact Relation.addIndex_wellFormed (wellFormed.relations _ present) located free
  · change (relation.schema.addIndex index).indexNames.Nodup
    rw [names]
    refine List.nodup_append.mpr ⟨own _ present, by simp, ?_⟩
    rintro former listed _ added rfl
    exact absent _ present (List.mem_singleton.mp added ▸ listed)
  · intro entry member different former listed
    change former ∉ (relation.schema.addIndex index).indexNames
    rw [names]
    intro either
    rcases List.mem_append.mp either with there | added
    · exact apart entry member _ present different former listed there
    · exact absent entry member (List.mem_singleton.mp added ▸ listed)

theorem dropIndex_wellFormed {index : String} {owner : Table} (wellFormed : store.WellFormed)
    (found : store.indexOwner? index = some owner)
    (dropped : store.alter owner.name (owner.removeIndex index) = .ok after) :
    after.WellFormed := by
  obtain ⟨relation, located, rfl⟩ := relation_of_indexOwner? wellFormed found
  obtain ⟨-, other, otherLocated, rfl⟩ := alter_eq_ok_iff.mp dropped
  cases located.symm.trans otherLocated
  have valid := wellFormed.relations _ (relation_eq_ok_iff.mp located)
  exact replace_wellFormed_of_sublist wellFormed located (Relation.removeIndex_wellFormed valid)
    (List.filter_sublist.map Index.name)

/-- A column may be added that has a name of its own and is not unique, if what the rows get in it
is allowed and the schema is valid with it. -/
theorem addColumn_eq_ok_iff {column : Column} :
    store.addColumn name column = .ok after ↔
      ∃ relation changed, store.relation name = .ok relation ∧
        column.name ∉ relation.schema.columnNames ∧
        (column.primaryKey = false ∧ column.unique = false) ∧
        (relation.rows ≠ [] → column.checkValue relation.schema.name
          (column.default.getD .null) = .ok ()) ∧
        (relation.schema.addColumn column).check = .ok () ∧
        relation.rewrite (relation.schema.addColumn column)
          (fun row => row.set column.name (column.default.getD .null)) = .ok changed ∧
        after = store.replace name changed := by
  simp only [addColumn, bind_eq_ok_iff, guarded_eq_ok_iff]
  simp only [checked_eq_ok_iff, bind_eq_ok_iff, pure_eq_ok_iff, Bool.not_eq_true,
    Bool.or_eq_false_iff, Option.isSome_eq_false_iff, Option.isNone_iff_eq_none,
    Table.position?_eq_none_iff, Bool.not_eq_eq_eq_not, Bool.not_true, List.isEmpty_eq_false_iff]
  constructor
  · rintro ⟨relation, found, fresh, plain, allowed, _, valid, changed, rewritten, rfl⟩
    exact ⟨relation, changed, found, fresh, plain, allowed, valid, rewritten, rfl⟩
  · rintro ⟨relation, changed, found, fresh, plain, allowed, valid, rewritten, rfl⟩
    exact ⟨relation, found, fresh, plain, allowed, (), valid, changed, rewritten, rfl⟩

/-- A table may get any name under which there is none. -/
theorem renameTable_eq_ok_iff :
    store.renameTable name target = .ok after ↔
      ∃ relation, store.relation name = .ok relation ∧
        store.relation target = .error (.tableNotFound target) ∧
        after = store.replace name (relation.alter { relation.schema with name := target }) := by
  simp only [renameTable, Store.table, bind_eq_ok_iff, map_eq_ok_iff, guarded_eq_ok_iff,
    alter_eq_ok_iff, relation_eq_error_iff, isSome_table?, Bool.not_eq_true]
  constructor
  · rintro ⟨_, ⟨relation, found, rfl⟩, free, -, other, otherFound, rfl⟩
    cases found.symm.trans otherFound
    exact ⟨relation, found, free, rfl⟩
  · rintro ⟨relation, found, free, rfl⟩
    exact ⟨_, ⟨relation, found, rfl⟩, free, fun _ => free, relation, found, rfl⟩

/-- A column may get any name that no column of its table has. -/
theorem renameColumn_eq_ok_iff {source : String} :
    store.renameColumn name source target = .ok after ↔
      ∃ relation changed, store.relation name = .ok relation ∧
        source ∈ relation.schema.columnNames ∧ target ∉ relation.schema.columnNames ∧
        relation.rewrite (relation.schema.renameColumn source target)
          (fun row => row.rename source target) = .ok changed ∧
        after = store.replace name changed := by
  have present {table : Table} :
      (∃ position, table.position source = .ok position) ↔ source ∈ table.columnNames := by
    simp only [Table.position_eq_ok_iff, ← Option.isSome_iff_exists, ← Option.ne_none_iff_isSome,
      ne_eq, Table.position?_eq_none_iff, not_not]
  simp only [renameColumn, bind_eq_ok_iff, guarded_eq_ok_iff, pure_eq_ok_iff, Bool.not_eq_true,
    Option.isSome_eq_false_iff, Option.isNone_iff_eq_none, Table.position?_eq_none_iff]
  constructor
  · rintro ⟨relation, found, position, located, fresh, changed, rewritten, rfl⟩
    exact ⟨relation, changed, found, present.mp ⟨position, located⟩, fresh, rewritten, rfl⟩
  · rintro ⟨relation, changed, found, member, fresh, rewritten, rfl⟩
    obtain ⟨position, located⟩ := present.mpr member
    exact ⟨relation, found, position, located, fresh, changed, rewritten, rfl⟩

theorem addColumn_wellFormed {column : Column} (wellFormed : store.WellFormed)
    (added : store.addColumn name column = .ok after) : after.WellFormed := by
  obtain ⟨relation, changed, found, -, plain, allowed, valid, rewritten, rfl⟩ :=
    addColumn_eq_ok_iff.mp added
  have formed := wellFormed.relations _ (relation_eq_ok_iff.mp found)
  obtain ⟨sameSchema, holds⟩ :=
    Relation.addColumn_wellFormed formed plain allowed valid rewritten
  refine replace_wellFormed_of_sublist wellFormed found holds ?_
  rw [sameSchema]
  exact List.Sublist.refl _

theorem renameTable_wellFormed (wellFormed : store.WellFormed)
    (renamed : store.renameTable name target = .ok after) : after.WellFormed := by
  obtain ⟨relation, found, -, rfl⟩ := renameTable_eq_ok_iff.mp renamed
  have formed := wellFormed.relations _ (relation_eq_ok_iff.mp found)
  exact replace_wellFormed_of_sublist wellFormed found (Relation.renameTable_wellFormed formed)
    (List.Sublist.refl _)

theorem renameColumn_wellFormed {source : String} (wellFormed : store.WellFormed)
    (renamed : store.renameColumn name source target = .ok after) : after.WellFormed := by
  obtain ⟨relation, changed, found, -, fresh, rewritten, rfl⟩ := renameColumn_eq_ok_iff.mp renamed
  have formed := wellFormed.relations _ (relation_eq_ok_iff.mp found)
  obtain ⟨sameSchema, holds⟩ := Relation.renameColumn_wellFormed formed fresh rewritten
  refine replace_wellFormed_of_sublist wellFormed found holds ?_
  rw [sameSchema]
  simp [Table.indexNames, Table.renameColumn, Function.comp_def]

theorem alterTable_wellFormed {alteration : Alteration} (wellFormed : store.WellFormed)
    (altered : store.alterTable name alteration = .ok after) : after.WellFormed := by
  cases alteration with
  | addColumn column => exact addColumn_wellFormed wellFormed altered
  | renameTable target => exact renameTable_wellFormed wellFormed altered
  | renameColumn source target => exact renameColumn_wellFormed wellFormed altered

end Store

/-- A plan whose new table passes the check, and has no indexes yet. -/
def Plan.Valid : Plan → Prop
  | .createTable schema _ => schema.check = .ok () ∧ schema.indexes = []
  | _ => True

/-- What a plan does to a store, in each of the ways in which it can go well. -/
inductive Plan.Writes (store : Store) : Plan → Store → Prop
  | created {schema : Table} {ifNotExists : Bool}
    (free : store.relations.contains schema.name = false) :
    Writes store (.createTable schema ifNotExists) (store.put (.new schema))
  | existed {schema : Table} {ifNotExists : Bool} :
    Writes store (.createTable schema ifNotExists) store
  | dropped {table : String} {ifExists : Bool} :
    Writes store (.dropTable table ifExists) ⟨store.relations.erase table⟩
  | missed {table : String} {ifExists : Bool} (absent : store.table? table = none) :
    Writes store (.dropTable table ifExists) store
  | indexed {table : String} {index : Index} {ifNotExists : Bool} {after : Store}
    (fresh : store.indexOwner? index.name = none)
    (creates : store.createIndex table index = .ok after) :
    Writes store (.createIndex table index ifNotExists) after
  | indexExisted {table : String} {index : Index} {ifNotExists : Bool} :
    Writes store (.createIndex table index ifNotExists) store
  | unindexed {index : String} {ifExists : Bool} {owner : Table} {after : Store}
    (found : store.indexOwner? index = some owner)
    (drops : store.alter owner.name (owner.removeIndex index) = .ok after) :
    Writes store (.dropIndex index ifExists) after
  | indexMissed {index : String} {ifExists : Bool} : Writes store (.dropIndex index ifExists) store
  | altered {table : String} {alteration : Alteration} {after : Store}
    (alters : store.alterTable table alteration = .ok after) :
    Writes store (.alterTable table alteration) after
  | inserted {table : String} {columns : Option (List String)} {resolution : Language.Resolution}
    {source : QueryPlan} {relation : Relation} {set : RowSet} {inserted : Inserted}
    (found : store.relation table = .ok relation) (ran : source.run store = .ok set)
    (inserts : relation.insertAll columns resolution set.rows = .ok inserted) :
    Writes store (.insert table columns resolution source)
      (store.replace table inserted.relation)
  | updated {table : String} {filter : Option Predicate} {assignments : List (Nat × Operand)}
    {resolution : Language.Resolution} {relation updated : Relation} {count : Nat}
    (found : store.relation table = .ok relation)
    (updates : relation.updateAll filter assignments resolution = .ok (updated, count)) :
    Writes store (.update table filter assignments resolution) (store.replace table updated)
  | deleted {table : String} {filter : Option Predicate} {relation : Relation}
    (found : store.relation table = .ok relation) :
    Writes store (.delete table filter)
      (store.replace table (relation.delete (relation.passingPositions filter)))
  | queried {query : QueryPlan} : Writes store (.query query) store

theorem Plan.writes_of_run {plan : Plan} {store after : Store} {outcome : Outcome}
    (ran : plan.run store = .ok (after, outcome)) : plan.Writes store after := by
  cases plan with
  | createTable schema ifNotExists =>
      simp only [Plan.run] at ran
      split at ran
      · cases pure_eq_ok_iff.mp ran
        exact .existed
      · simp only [bind_eq_ok_iff, pure_eq_ok_iff, Prod.mk.injEq, Store.create] at ran
        obtain ⟨created, creates, rfl, -⟩ := ran
        split at creates
        · cases creates
        · rename_i free
          cases creates
          exact .created (by simpa using free)
  | dropTable table ifExists =>
      simp only [Plan.run] at ran
      split at ran
      · rename_i absent
        cases pure_eq_ok_iff.mp ran
        exact .missed (Option.isNone_iff_eq_none.mp (Bool.and_eq_true_iff.mp absent).2)
      · simp only [bind_eq_ok_iff, pure_eq_ok_iff, Prod.mk.injEq, Store.drop] at ran
        obtain ⟨dropped, ⟨relation, -, rfl⟩, rfl, -⟩ := ran
        exact .dropped
  | createIndex table index ifNotExists =>
      simp only [Plan.run] at ran
      split at ran
      · split at ran
        · cases pure_eq_ok_iff.mp ran
          exact .indexExisted
        · cases ran
      · rename_i absent
        simp only [bind_eq_ok_iff, pure_eq_ok_iff, Prod.mk.injEq] at ran
        obtain ⟨created, creates, rfl, -⟩ := ran
        exact .indexed (by simpa using absent) creates
  | dropIndex index ifExists =>
      simp only [Plan.run] at ran
      split at ran
      · rename_i owner found
        simp only [bind_eq_ok_iff, pure_eq_ok_iff, Prod.mk.injEq] at ran
        obtain ⟨dropped, drops, rfl, -⟩ := ran
        exact .unindexed found drops
      · split at ran
        · cases pure_eq_ok_iff.mp ran
          exact .indexMissed
        · cases ran
  | alterTable table alteration =>
      simp only [Plan.run, bind_eq_ok_iff, pure_eq_ok_iff, Prod.mk.injEq] at ran
      obtain ⟨altered, alters, rfl, -⟩ := ran
      exact .altered alters
  | insert table columns resolution source =>
      simp only [Plan.run, bind_eq_ok_iff, pure_eq_ok_iff, Prod.mk.injEq] at ran
      obtain ⟨relation, found, set, ran, inserted, inserts, rfl, -⟩ := ran
      exact .inserted found ran inserts
  | update table filter assignments resolution =>
      simp only [Plan.run, bind_eq_ok_iff, pure_eq_ok_iff, Prod.mk.injEq] at ran
      obtain ⟨relation, found, ⟨updated, count⟩, updates, rfl, -⟩ := ran
      exact .updated found updates
  | delete table filter =>
      simp only [Plan.run, Relation.deleteAll, bind_eq_ok_iff, pure_eq_ok_iff,
        Prod.mk.injEq] at ran
      obtain ⟨relation, found, rfl, -⟩ := ran
      exact .deleted found
  | query plan =>
      simp only [Plan.run, bind_eq_ok_iff, pure_eq_ok_iff, Prod.mk.injEq] at ran
      obtain ⟨set, -, rfl, -⟩ := ran
      exact .queried

theorem Plan.run_wellFormed {plan : Plan} {store after : Store} {outcome : Outcome}
    (wellFormed : store.WellFormed) (valid : plan.Valid)
    (ran : plan.run store = .ok (after, outcome)) : after.WellFormed := by
  have formed {name : String} {relation : Relation} (found : store.relation name = .ok relation) :
      relation.WellFormed := wellFormed.relations _ (Store.relation_eq_ok_iff.mp found)
  cases Plan.writes_of_run ran with
  | created free => exact Store.put_new_wellFormed wellFormed valid.1 valid.2
  | dropped => exact Store.erase_wellFormed wellFormed
  | indexed fresh creates => exact Store.createIndex_wellFormed wellFormed fresh creates
  | unindexed found drops => exact Store.dropIndex_wellFormed wellFormed found drops
  | altered alters => exact Store.alterTable_wellFormed wellFormed alters
  | inserted found _ inserts =>
      obtain ⟨sameSchema, holds⟩ := insertAll_wellFormed (formed found) inserts
      exact Store.replace_wellFormed_of_sublist wellFormed found holds (by rw [sameSchema])
  | updated found updates =>
      obtain ⟨sameSchema, holds⟩ := updateAll_wellFormed (formed found) updates
      exact Store.replace_wellFormed_of_sublist wellFormed found holds (by rw [sameSchema])
  | deleted found =>
      exact Store.replace_wellFormed_of_sublist wellFormed found (delete_wellFormed (formed found))
        (by rw [Relation.schema_delete])
  | existed => exact wellFormed
  | missed => exact wellFormed
  | indexExisted => exact wellFormed
  | indexMissed => exact wellFormed
  | queried => exact wellFormed

end Coffer
