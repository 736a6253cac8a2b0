import Coffer.Proofs.Reachable
import Coffer.Proofs.StoredState

namespace Coffer

/-! # Restored states

What is read from the document of a well-formed state passes every check that a restored
state has to pass: a default more or less changes nothing of what the checks look at.
-/

namespace Column

variable {column : Column} {table : String}

theorem check_kept (valid : column.check table = .ok ()) : column.kept.check table = .ok () := by
  rw [check_eq_ok_iff] at valid ⊢
  obtain ⟨key, counted, -⟩ := valid
  refine ⟨key, counted, fun null => ?_⟩
  obtain ⟨-, notNull⟩ := Option.filter_eq_some_iff.mp null
  cases notNull

end Column

namespace Table

variable {table : Table} {row : Row} {tuple : List Value}

theorem columnNames_kept : table.kept.columnNames = table.columnNames := by
  simp [kept, columnNames, Column.kept]

theorem tuple_kept : table.kept.tuple row = table.tuple row := by
  rw [Table.tuple, columnNames_kept, Table.tuple]

theorem declaredUnique_kept : table.kept.declaredUnique = table.declaredUnique := by
  simp [kept, declaredUnique, Column.kept, Option.any_map]

theorem uniqueColumns_kept : table.kept.uniqueColumns = table.uniqueColumns := by
  have position : table.kept.position? = table.position? := by
    funext column
    rw [position?, columnNames_kept, position?]
  rw [uniqueColumns, declaredUnique_kept, position, uniqueColumns]
  rfl

theorem check_kept (valid : table.check = .ok ()) : table.kept.check = .ok () := by
  rw [check_eq_ok_iff] at valid ⊢
  obtain ⟨single, distinct, columns⟩ := valid
  refine ⟨?_, ?_, ?_⟩
  · rw [kept, List.countP_map]
    exact single
  · rwa [columnNames_kept]
  · intro column member
    obtain ⟨former, among, rfl⟩ := List.mem_map.mp member
    exact Column.check_kept (columns former among)

theorem checkTuple_kept (valid : table.checkTuple tuple = .ok ()) :
    table.kept.checkTuple tuple = .ok () := by
  rw [checkTuple_eq_ok_iff] at valid ⊢
  obtain ⟨length, values⟩ := valid
  refine ⟨by simpa [kept] using length, fun pair member => ?_⟩
  have zipped : table.kept.columns.zip tuple =
      (table.columns.zip tuple).map (Prod.map Column.kept id) := by
    rw [kept, List.zip_map_left]
  rw [zipped] at member
  obtain ⟨former, among, rfl⟩ := List.mem_map.mp member
  exact values former among

theorem holds_kept (held : table.Holds row) : table.kept.Holds row := by
  obtain ⟨columns, values⟩ := held
  refine ⟨columns.trans columnNames_kept.symm, ?_⟩
  rw [tuple_kept]
  exact checkTuple_kept values

end Table

namespace Relation

variable {relation : Relation} {name : String} {row : Row} {rows : List Row}

theorem keyOf_kept {schema : Table} {column : Nat} :
    keyOf schema.kept row column = keyOf schema row column := by
  rw [keyOf, Table.tuple_kept, keyOf]

theorem kept_wellFormed (wellFormed : relation.WellFormed) : relation.kept.WellFormed := by
  refine WellFormed.build (Table.check_kept wellFormed.schemaValid) ?_ ?_ ?_
  · intro index member column among
    rw [Table.columnNames_kept]
    exact wellFormed.indexColumns index member column among
  · exact fun row stored => Table.holds_kept (wellFormed.rowsHeld row stored)
  · intro column unique
    rw [Table.uniqueColumns_kept] at unique
    simp only [Apart, keyOf_kept]
    exact wellFormed.keysDistinct column unique

theorem keyAt_of_mem {index : KeyIndex} {keyAt : Nat → Option Key} {entry : Key × List Nat}
    (reflects : index.Reflects keyAt) (listed : entry ∈ index.entries) {position : Nat}
    (held : position ∈ entry.2) : keyAt position = some entry.1 := by
  obtain ⟨before, behind, form⟩ := List.append_of_mem listed
  have distinct := reflects.distinct
  rw [form, List.map_append, List.map_cons, List.nodup_append] at distinct
  have first : index.entries.lookup entry.1 = some entry.2 := by
    refine List.lookup_eq_some_iff.mpr ⟨before, behind, form, fun other member => ?_⟩
    have apart := distinct.2.2 other.1 (List.mem_map_of_mem member) entry.1 List.mem_cons_self
    simpa using fun same : entry.1 = other.1 => apart same.symm
  refine (reflects.mem_positions entry.1 position).mp ?_
  rw [KeyIndex.positions, first]
  exact held

/-- An index tells whether two rows share a key. -/
theorem hasShared_iff {index : KeyIndex} {keyAt : Nat → Option Key}
    (reflects : index.Reflects keyAt) :
    index.hasShared = true ↔
      ∃ first second key, first < second ∧ keyAt first = some key ∧ keyAt second = some key := by
  constructor
  · intro shared
    obtain ⟨⟨key, positions⟩, listed, several⟩ := List.any_eq_true.mp shared
    have ascending := reflects.ascending _ listed
    rcases positions with _ | ⟨first, _ | ⟨second, others⟩⟩
    · simp at several
    · simp at several
    · refine ⟨first, second, key, (List.pairwise_cons.mp ascending).1 second List.mem_cons_self,
          keyAt_of_mem reflects listed List.mem_cons_self,
          keyAt_of_mem reflects listed (List.mem_cons_of_mem _ List.mem_cons_self)⟩
  · rintro ⟨first, second, key, before, firstKey, secondKey⟩
    have firstListed := (reflects.mem_positions key first).mpr firstKey
    have secondListed := (reflects.mem_positions key second).mpr secondKey
    rw [KeyIndex.positions] at firstListed secondListed
    cases found : index.entries.lookup key with
    | none => simp [found] at firstListed
    | some positions =>
        rw [found, Option.getD_some] at firstListed secondListed
        obtain ⟨front, behind, split, -⟩ := List.lookup_eq_some_iff.mp found
        refine List.any_eq_true.mpr ⟨(key, positions), by simp [split], decide_eq_true ?_⟩
        rcases positions with _ | ⟨position, _ | ⟨next, others⟩⟩
        · cases firstListed
        · rw [List.mem_singleton] at firstListed secondListed
          omega
        · simp

theorem sharedColumn?_eq_none_iff (indexed : relation.Indexed) :
    relation.sharedColumn? = none ↔
      ∀ column ∈ relation.schema.uniqueColumns, Apart relation.schema relation.rows column := by
  rw [sharedColumn?, Option.map_eq_none_iff, List.find?_eq_none]
  constructor
  · intro none column unique
    obtain ⟨entry, member, rfl⟩ := List.mem_map.mp (indexed.columns_eq ▸ unique)
    refine List.pairwise_iff_getElem.mpr fun first second firstWithin secondWithin before key
      firstKey secondKey => none entry member ?_
    refine (hasShared_iff (indexed.reflects entry member)).mpr ⟨first, second, key, before, ?_, ?_⟩
    · simp only [keyAt, keyAmong, List.getElem?_eq_getElem firstWithin, Option.bind_some, firstKey]
    · simp only [keyAt, keyAmong, List.getElem?_eq_getElem secondWithin, Option.bind_some, secondKey]
  · intro apart entry member shared
    have unique : entry.1 ∈ relation.schema.uniqueColumns :=
      indexed.columns_eq ▸ List.mem_map_of_mem member
    obtain ⟨first, second, key, before, firstKey, secondKey⟩ :=
      (hasShared_iff (indexed.reflects entry member)).mp shared
    exact absurd ((apart entry.1 unique).keyAmong_injective firstKey secondKey) (Nat.ne_of_lt before)

theorem checkRow_eq_ok_iff :
    relation.checkRow name row = .ok () ↔
      (∀ column ∈ row.columns, column ∈ relation.schema.columnNames) ∧
        relation.schema.checkTuple (relation.schema.tuple row) = .ok () := by
  have known : relation.unknownColumn? row = none ↔
      ∀ column ∈ row.columns, column ∈ relation.schema.columnNames := by
    rw [unknownColumn?, List.find?_eq_none]
    refine forall₂_congr fun column _ => ?_
    rw [Option.isNone_iff_eq_none, Table.position?_eq_none_iff, not_not]
  rw [← known, checkRow]
  cases relation.unknownColumn? row with
  | some column => simp [throw, throwThe, MonadExceptOf.throw, bind, Except.bind]
  | none =>
      cases relation.schema.checkTuple (relation.schema.tuple row) with
      | ok _ => simp [pure, Except.pure]
      | error error => simp [throw, throwThe, MonadExceptOf.throw]

/-- What a relation is checked for before it is restored under a name. -/
structure Admissible (name : String) (relation : Relation) : Prop where
  named : relation.schema.name = name
  schemaValid : relation.schema.check = .ok ()
  rowsKnown : ∀ row ∈ relation.rows, ∀ column ∈ row.columns, column ∈ relation.schema.columnNames
  rowsValid : ∀ row ∈ relation.rows,
    relation.schema.checkTuple (relation.schema.tuple row) = .ok ()
  keysDistinct : ∀ column ∈ relation.schema.uniqueColumns,
    Apart relation.schema relation.rows column

/-- The relation with its key indexes built anew. -/
def rebuilt (relation : Relation) : Relation :=
  build relation.schema relation.rows relation.nextId

/-- A relation is restored exactly if it passes the checks. Nothing is asked of its counter and
of what its indexes are named and are over. -/
theorem restore_eq_ok_iff :
    relation.restore name = .ok after ↔ relation.Admissible name ∧ after = relation.rebuilt := by
  have apart := sharedColumn?_eq_none_iff
    (@build_indexed relation.schema relation.rows relation.nextId)
  rw [restore, guarded_eq_ok_iff, not_not]
  simp only [bind_eq_ok_iff]
  constructor
  · rintro ⟨named, _, valid, _, rows, restored⟩
    split at restored
    · cases restored
    · rename_i unshared
      cases restored
      have rows := fun row stored => checkRow_eq_ok_iff.mp (forM_eq_ok_iff.mp rows row stored)
      exact ⟨⟨named.symm, valid, fun row stored => (rows row stored).1,
        fun row stored => (rows row stored).2, apart.mp unshared⟩, rfl⟩
  · rintro ⟨⟨named, valid, known, checked, distinct⟩, rfl⟩
    have rows : relation.rows.forM (relation.checkRow name) = .ok () :=
      forM_eq_ok_iff.mpr fun row stored =>
        checkRow_eq_ok_iff.mpr ⟨known row stored, checked row stored⟩
    refine ⟨named.symm, (), valid, (), rows, ?_⟩
    rw [apart.mpr distinct]
    rfl

theorem WellFormed.admissible (wellFormed : relation.WellFormed)
    (named : relation.schema.name = name) : relation.Admissible name where
  named := named
  schemaValid := wellFormed.schemaValid
  rowsKnown := fun row stored _ member =>
    (wellFormed.rowsHeld row stored).columns ▸ member
  rowsValid := fun row stored => (wellFormed.rowsHeld row stored).values
  keysDistinct := wellFormed.keysDistinct

theorem unindexed_admissible (wellFormed : relation.WellFormed)
    (named : relation.schema.name = name) : (State.unindexed relation).Admissible name := by
  obtain ⟨named, valid, known, checked, distinct⟩ := (kept_wellFormed wellFormed).admissible named
  exact ⟨named, valid, known, checked, distinct⟩

end Relation

namespace Store

variable {store after : Store}

theorem restoreAll_eq_ok_iff {entries results : List (String × Relation)} :
    restoreAll entries = .ok results ↔
      (∀ entry ∈ entries, entry.2.Admissible entry.1) ∧
        results = entries.map fun entry => (entry.1, entry.2.rebuilt) := by
  induction entries generalizing results with
  | nil => simp [restoreAll, eq_comm]
  | cons entry others ih =>
      simp only [restoreAll, bind_eq_ok_iff, pure_eq_ok_iff, Relation.restore_eq_ok_iff, ih,
        List.forall_mem_cons, List.map_cons]
      constructor
      · rintro ⟨_, ⟨first, rfl⟩, _, ⟨later, rfl⟩, rfl⟩
        exact ⟨⟨first, later⟩, rfl⟩
      · rintro ⟨⟨first, later⟩, rfl⟩
        exact ⟨_, ⟨first, rfl⟩, _, ⟨later, rfl⟩, rfl⟩

/-- The store with the key indexes of all relations built anew. -/
def rebuilt (store : Store) : Store :=
  ⟨store.relations.mapped Relation.rebuilt⟩

theorem restore_eq_ok_iff :
    store.restore = .ok after ↔
      (∀ entry ∈ store.relations.entries, entry.2.Admissible entry.1) ∧ after = store.rebuilt := by
  simp only [restore, bind_eq_ok_iff, pure_eq_ok_iff, restoreAll_eq_ok_iff]
  constructor
  · rintro ⟨_, ⟨admissible, rfl⟩, rfl⟩
    exact ⟨admissible, congrArg Store.mk Directory.ofList_mapped⟩
  · rintro ⟨admissible, rfl⟩
    exact ⟨_, ⟨admissible, rfl⟩, congrArg Store.mk Directory.ofList_mapped⟩

end Store

namespace State

variable {state after : State}

theorem strayRole?_eq_none_iff : state.strayRole? = none ↔ state.access.RolesKnown := by
  simp [strayRole?, Access.RolesKnown, List.find?_eq_none]

/-- The state with the key indexes of all relations built anew. -/
def rebuilt (state : State) : State :=
  { state with store := state.store.rebuilt }

/-- A state is restored exactly if all its relations are and the roles of its users are known. -/
theorem restore_eq_ok_iff :
    state.restore = .ok after ↔
      (∀ entry ∈ state.store.relations.entries, entry.2.Admissible entry.1) ∧
        state.access.RolesKnown ∧ after = state.rebuilt := by
  rw [restore, ← strayRole?_eq_none_iff]
  simp only [bind_eq_ok_iff, Store.restore_eq_ok_iff]
  cases state.strayRole? with
  | some role => simp [throw, throwThe, MonadExceptOf.throw]
  | none =>
      simp only [pure_eq_ok_iff, true_and]
      constructor
      · rintro ⟨_, ⟨admissible, rfl⟩, rfl⟩
        exact ⟨admissible, rfl⟩
      · rintro ⟨admissible, rfl⟩
        exact ⟨_, ⟨admissible, rfl⟩, rfl⟩

/-- The state that the document of another one holds, restored. -/
def kept (state : State) : State :=
  { state with store := ⟨state.store.relations.mapped Relation.kept⟩ }

/-- What is read from the document of a well-formed state can be restored. -/
theorem restore_unindexed (wellFormed : state.WellFormed) :
    State.restore { state with store := ⟨state.store.relations.mapped unindexed⟩ } =
      .ok state.kept := by
  obtain ⟨⟨named, relations, -⟩, ⟨-, known⟩⟩ := wellFormed
  refine restore_eq_ok_iff.mpr ⟨fun entry member => ?_, known, ?_⟩
  · obtain ⟨former, among, rfl⟩ := List.mem_map.mp member
    exact Relation.unindexed_admissible (relations former among) (named former among)
  · have mapped : (state.store.relations.mapped unindexed).mapped Relation.rebuilt =
        state.store.relations.mapped Relation.kept := by
      refine Directory.ext_entries ?_
      simp only [Directory.mapped, List.map_map]
      rfl
    exact congrArg (fun relations => State.mk ⟨relations⟩ state.access) mapped.symm

end State

end Coffer
