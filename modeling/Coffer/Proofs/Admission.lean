import Coffer.Proofs.Lookup
import Coffer.Proofs.Snapshot

namespace Coffer

/-! # What snapshots are loaded

A snapshot is loaded if its payload spells a state whose relations conform to their schemas and
whose users stand under roles that there are. What else statements keep up is taken from the
payload as it stands: the counters, and what the indexes are named and are over.
-/

namespace Snapshot

variable {key : Option SnapshotKey} {blob : Bytes}

/-- The state that the payload of a snapshot spells, before anything of it is checked. -/
def document (key : Option SnapshotKey) (blob : Bytes) : Except Error State := do
  let parts ← SnapshotParts.ofBytes blob
  let content ← unsealed parts key
  let plain ← unpacked parts content
  match (Json.ofBytes? plain).bind State.ofJson? with
  | some state => .ok state
  | none => .error .invalidPayload

theorem load_eq : load key blob = document key blob >>= State.restore := by
  simp only [load, document, bind_assoc]
  refine bind_congr fun parts => bind_congr fun content => bind_congr fun plain => ?_
  cases (Json.ofBytes? plain).bind State.ofJson? <;> rfl

end Snapshot

theorem Relation.rebuilt_indexed {relation : Relation} : relation.rebuilt.Indexed :=
  build_indexed

/-- The checks look at schemas and rows, which are rebuilt as they are. -/
theorem Relation.rebuilt_admissible_iff {relation : Relation} {name : String} :
    relation.rebuilt.Admissible name ↔ relation.Admissible name :=
  ⟨fun ⟨named, valid, known, checked, distinct⟩ => ⟨named, valid, known, checked, distinct⟩,
    fun ⟨named, valid, known, checked, distinct⟩ => ⟨named, valid, known, checked, distinct⟩⟩

theorem State.mem_rebuilt {state : State} {entry : String × Relation} :
    entry ∈ state.rebuilt.store.relations.entries ↔
      ∃ former ∈ state.store.relations.entries, (former.1, former.2.rebuilt) = entry :=
  List.mem_map

namespace Snapshot

/-- A snapshot is loaded exactly if its payload spells a state in which every relation stands
under the name of its schema, the schema passes its check, the rows have no columns but those of
the schema and pass its check, no two of them share a key in a unique column, and every user
stands under a role that there is. The state that is loaded is the one that was spelled, with key
indexes whose lookups agree with scans. Nothing is asked of the counters, nor of the names and
the columns of the indexes. -/
theorem load_eq_ok_iff (key : Option SnapshotKey) (blob : Bytes) (state : State) :
    load key blob = .ok state ↔
      ∃ spelled, document key blob = .ok spelled ∧ state = spelled.rebuilt ∧
        (∀ name relation, (name, relation) ∈ state.store.relations.entries →
          relation.schema.name = name ∧ relation.schema.check = .ok () ∧
          (∀ row ∈ relation.rows,
            (∀ column ∈ row.columns, column ∈ relation.schema.columnNames) ∧
              relation.schema.checkTuple (relation.schema.tuple row) = .ok ()) ∧
          (∀ column ∈ relation.schema.uniqueColumns, relation.rows.Pairwise fun first second =>
            ∀ key, Relation.keyOf relation.schema first column = some key →
              Relation.keyOf relation.schema second column ≠ some key) ∧
          ∀ column value, relation.lookup column value = relation.scan column value) ∧
        ∀ entry ∈ state.access.users.entries,
          state.access.roles.contains entry.2.role = true := by
  simp only [load_eq, bind_eq_ok_iff, State.restore_eq_ok_iff]
  refine exists_congr fun spelled => and_congr_right fun _ => ?_
  constructor
  · rintro ⟨admissible, known, rfl⟩
    refine ⟨rfl, fun name relation member => ?_, known⟩
    obtain ⟨former, among, same⟩ := State.mem_rebuilt.mp member
    cases same
    obtain ⟨named, valid, columns, checked, distinct⟩ :=
      Relation.rebuilt_admissible_iff.mpr (admissible former among)
    exact ⟨named, valid, fun row stored => ⟨columns row stored, checked row stored⟩, distinct,
      fun column value => Relation.lookup_eq_scan Relation.rebuilt_indexed⟩
  · rintro ⟨rfl, relations, known⟩
    refine ⟨fun entry member => Relation.rebuilt_admissible_iff.mp ?_, known, rfl⟩
    obtain ⟨named, valid, rows, distinct, -⟩ :=
      relations entry.1 entry.2.rebuilt (State.mem_rebuilt.mpr ⟨entry, member, rfl⟩)
    exact ⟨named, valid, fun row stored => (rows row stored).1,
      fun row stored => (rows row stored).2, distinct⟩

/-- A counter that is not past the stored ids is loaded as it stands, so that the next row which
takes its id from it is refused. So are two indexes of one name, one of them over a column that
there is not. -/
theorem stale_counter_loaded :
    let schema : Table :=
      { name := "notes", columns := [Table.implicitKey, .plain "body" .text]
        indexes := [⟨"i", ["gone"], false⟩, ⟨"i", ["body"], false⟩] }
    let row : Row := ⟨[("id", .integer 1), ("body", .text "first")]⟩
    let relation := Relation.build schema [row] 1
    let state : State := { store := ⟨.ofList [("notes", relation)]⟩, access := .standard }
    let settings : Settings :=
      { key := none, compress := false, createdAt := ⟨0, 0⟩, nonce := List.replicate 12 0 }
    let request : Request :=
      { sql := "INSERT INTO notes (body) VALUES ('second')", parameters := [], caller := .local }
    load none (save settings state) = .ok state ∧
      (document none (save settings state)).map State.rebuilt = .ok state ∧
      state.store.relations.entries = [("notes", relation)] ∧
      (schema.counted?.map Column.name, relation.nextId, row.get? "id") =
        (some "id", 1, some (.integer 1)) ∧
      (¬ ∀ index ∈ schema.indexes, ∀ column ∈ index.columns, column ∈ schema.columnNames) ∧
      ¬ (schema.indexes.map Index.name).Nodup ∧
      ((Database.load .standard (save settings state)).map fun database =>
        (database.perform request).2) = .ok (.error (.notUnique "notes" "id")) := by
  intro schema row relation state settings request
  have spelled : (match State.ofJson? state.toJson with
      | some spelled => spelled.restore
      | none => .error .invalidPayload) = .ok state := by decide +kernel
  have loaded : load none (save settings state) = .ok state :=
    (@load_save_eq state settings ⟨by decide +kernel, by decide⟩ rfl).trans spelled
  obtain ⟨found, read, same, -⟩ := (load_eq_ok_iff none (save settings state) state).mp loaded
  refine ⟨loaded, by rw [read, same]; rfl, by decide +kernel, by decide +kernel, by decide +kernel,
    by decide +kernel, ?_⟩
  have opened : Database.load .standard (save settings state) =
      .ok { Database.fresh with state } := by
    rw [Database.load, Database.new_standard, ok_bind]
    exact bind_eq_ok_iff.mpr ⟨state, loaded, rfl⟩
  rw [opened]
  decide +kernel

end Snapshot

end Coffer
