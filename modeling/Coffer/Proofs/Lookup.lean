import Mathlib.Data.List.Sort
import Coffer.Proofs.Directory
import Coffer.Proofs.Relation
import Coffer.Store.Basic

namespace Coffer

/-! # Lookups against scans

Whatever is written to a store, and whether the calls go well or fail, the key indexes of its
relations list what a scan of the rows finds.
-/

/-- Whether two values have keys, and the same one. -/
def Value.sharesKey (first second : Value) : Bool :=
  match first.key?, second.key? with
  | some key, some other => key == other
  | _, _ => false

theorem Value.sharesKey_eq_true_iff {first second : Value} :
    first.sharesKey second = true ↔ ∃ key, first.key? = some key ∧ second.key? = some key := by
  simp only [sharesKey]
  cases first.key? with
  | none => simp
  | some key =>
      cases second.key? with
      | none => simp
      | some other =>
          simp only [beq_iff_eq, Option.some.injEq, exists_eq_left']
          exact eq_comm

/-- The positions of the rows that share their key in a column with a value, found by looking
at every row. -/
def Relation.scan (relation : Relation) (column : Nat) (value : Value) : List Nat :=
  (List.range relation.rows.length).filter fun position =>
    match relation.rows[position]? with
    | some row => (relation.schema.tuple row)[column]?.any value.sharesKey
    | none => false

namespace Store

/-- The store after a call. One that fails changes nothing. -/
def afterWrite (store : Store) (call : Write) : Store :=
  match store.write call with
  | .ok after => after
  | .error _ => store

/-- The store after calls made one after another. -/
def afterWrites (store : Store) (calls : List Write) : Store :=
  calls.foldl afterWrite store

/-- The key indexes of all relations tell of the rows as they are. -/
def Indexed (store : Store) : Prop :=
  ∀ entry ∈ store.relations.entries, entry.2.Indexed

end Store

namespace KeyIndex.Reflects

variable {index : KeyIndex} {keyAt : Nat → Option Key}

theorem positions_ascending (reflects : index.Reflects keyAt) (key : Key) :
    (index.positions key).Pairwise (· < ·) := by
  cases listed : index.entries.lookup key with
  | none => simp [positions, listed]
  | some found =>
      obtain ⟨before, behind, split, -⟩ := List.lookup_eq_some_iff.mp listed
      have ascending := reflects.ascending (key, found) (by simp [split])
      simpa [positions, listed] using ascending

end KeyIndex.Reflects

namespace Relation

variable {relation : Relation} {column position : Nat} {value : Value} {key : Key}

theorem positionsOf_ascending (indexed : relation.Indexed) :
    (relation.positionsOf column key).Pairwise (· < ·) := by
  by_cases listed : column ∈ relation.schema.uniqueColumns
  · obtain ⟨index, found, reflects⟩ := indexed.lookup listed
    simp only [positionsOf, found]
    exact reflects.positions_ascending key
  · simp only [positionsOf, indexed.lookup_of_absent listed]
    exact List.pairwise_lt_range.filter _

/-- A scan finds the rows that have the key of the value. -/
theorem mem_scan :
    position ∈ relation.scan column value ↔
      ∃ key, value.key? = some key ∧ relation.keyAt column position = some key := by
  simp only [scan, List.mem_filter, List.mem_range, keyAt, keyAmong]
  cases found : relation.rows[position]? with
  | none => simp
  | some row =>
      have within : position < relation.rows.length := (List.getElem?_eq_some_iff.mp found).1
      simp only [within, true_and, Option.bind_some, keyOf, Option.any_eq_true,
        Value.sharesKey_eq_true_iff, Option.bind_eq_some_iff]
      constructor
      · rintro ⟨other, listed, key, own, shared⟩
        exact ⟨key, own, other, listed, shared⟩
      · rintro ⟨key, own, other, listed, shared⟩
        exact ⟨other, listed, key, own, shared⟩

theorem mem_lookup (indexed : relation.Indexed) :
    position ∈ relation.lookup column value ↔
      ∃ key, value.key? = some key ∧ relation.keyAt column position = some key := by
  rw [lookup]
  cases value.key? with
  | none => simp
  | some key => simp [mem_positionsOf indexed]

theorem lookup_ascending (indexed : relation.Indexed) :
    (relation.lookup column value).Pairwise (· < ·) := by
  simp only [lookup]
  split
  · exact positionsOf_ascending indexed
  · exact .nil

theorem lookup_eq_scan (indexed : relation.Indexed) :
    relation.lookup column value = relation.scan column value :=
  (lookup_ascending indexed).eq_of_mem_iff (List.pairwise_lt_range.filter _)
    fun _ => (mem_lookup indexed).trans mem_scan.symm

end Relation

namespace Store

variable {store after : Store} {relation : Relation} {name : String} {call : Write}

theorem relation_indexed (indexed : store.Indexed) (found : store.relation name = .ok relation) :
    relation.Indexed := by
  cases listed : store.relations.get? name with
  | none => simp [Store.relation, listed] at found
  | some held =>
      simp only [Store.relation, listed, Except.ok.injEq] at found
      subst found
      exact indexed _ (Directory.get?_eq_some_iff.mp listed)

theorem erase_indexed (indexed : store.Indexed) : (Store.mk (store.relations.erase name)).Indexed :=
  fun entry member => indexed entry (Directory.mem_erase_iff.mp member).1

theorem insert_indexed (indexed : store.Indexed) (relationIndexed : relation.Indexed) :
    (Store.mk (store.relations.insert name relation)).Indexed := by
  intro entry member
  rcases Directory.mem_insert_iff.mp member with rfl | ⟨former, -⟩
  · exact relationIndexed
  · exact indexed entry former

/-- A change of one relation that keeps its indexes in step keeps those of the store so. -/
theorem change_indexed {step : Relation → Except Error Relation}
    (kept : ∀ relation changed, relation.Indexed → step relation = .ok changed → changed.Indexed)
    (indexed : store.Indexed) (written : store.change name step = .ok after) : after.Indexed := by
  simp only [change, bind_eq_ok_iff, pure_eq_ok_iff] at written
  obtain ⟨relation, found, changed, stepped, rfl⟩ := written
  exact insert_indexed indexed (kept relation changed (relation_indexed indexed found) stepped)

/-- A new schema shifts what each key stands for, so the indexes are built anew. -/
theorem write_indexed (indexed : store.Indexed) (written : store.write call = .ok after) :
    after.Indexed := by
  cases call with
  | create table =>
      simp only [write, create] at written
      split at written
      · cases written
      · cases written
        exact insert_indexed indexed Relation.build_indexed
  | drop table =>
      simp only [write, drop, bind_eq_ok_iff, pure_eq_ok_iff] at written
      obtain ⟨relation, -, rfl⟩ := written
      exact erase_indexed indexed
  | alter table schema =>
      simp only [write, alter, guarded_eq_ok_iff, bind_eq_ok_iff, pure_eq_ok_iff] at written
      obtain ⟨-, relation, -, rfl⟩ := written
      exact insert_indexed (erase_indexed indexed) Relation.build_indexed
  | insert table row =>
      refine change_indexed (fun relation changed former inserted => ?_) indexed written
      cases inserted
      exact Relation.insert_indexed former
  | update table position row =>
      exact change_indexed (fun relation changed former updated =>
        Relation.update_indexed former updated) indexed written
  | delete table positions =>
      refine change_indexed (fun relation changed former deleted => ?_) indexed written
      cases deleted
      exact Relation.delete_indexed former

theorem afterWrite_indexed (indexed : store.Indexed) : (store.afterWrite call).Indexed := by
  simp only [afterWrite]
  split
  · rename_i after written
    exact write_indexed indexed written
  · exact indexed

theorem afterWrites_indexed {calls : List Write} (indexed : store.Indexed) :
    (store.afterWrites calls).Indexed := by
  induction calls generalizing store with
  | nil => exact indexed
  | cons call rest ih => exact ih (afterWrite_indexed indexed)

/-- After any calls, a lookup in a table lists the positions that a scan of its rows finds, in
ascending order; in a table that is not there both fail. -/
theorem lookup_after_writes (calls : List Write) (name : String) (column : Nat) (value : Value) :
    (empty.afterWrites calls).lookup name column value =
      ((empty.afterWrites calls).relation name).map fun relation =>
        relation.scan column value := by
  have indexed : (empty.afterWrites calls).Indexed :=
    afterWrites_indexed (by simp [Indexed, empty, Directory.empty])
  rw [lookup]
  cases found : (empty.afterWrites calls).relation name with
  | error error => rfl
  | ok relation =>
      simp only [Except.map, Relation.lookup_eq_scan (relation_indexed indexed found)]

end Store

end Coffer
