import Coffer.Proofs.Gzip
import Coffer.Proofs.Instant
import Coffer.Proofs.Restoring
import Coffer.Proofs.Sealed

namespace Coffer

/-! # Snapshots of reachable states

A snapshot of a state that a database can be in is loaded again, whether or not it is packed
and whether or not it is sealed.
-/

namespace Header

variable {header : Header}

theorem readable_toJson : Json.Readable header.toJson := by
  refine Json.readable_ofMembers ?_
  simp only [List.forall_mem_cons, List.not_mem_nil, false_imp_iff, implies_true, and_true]
  exact ⟨Json.readable_ofInt _, .string _, .boolean _, .boolean _,
    Json.readable_ofOption fun _ => .string _⟩

theorem ofJson?_toJson (version : header.version = currentVersion)
    (createdAt : header.createdAt.Valid) : ofJson? header.toJson = some header := by
  have number : Json.natural? (Nat.pow 2 32) (.ofInt header.version) = some header.version := by
    rw [version]
    exact Json.natural?_ofInt (by decide) (by decide)
  rw [ofJson?, toJson, Json.Record.ofJson?_ofMembers]
  · simp [Json.Record.required, Json.Record.optional, List.lookup_cons, Json.boolean?, number,
      Json.option?_ofText, Instant.ofText?_toText createdAt]
  · rfl
  · decide

theorem length_boolean_le {truth : Bool} : (Json.written (.boolean truth)).length ≤ 5 := by
  cases truth with
  | false => rw [Json.written]; decide +kernel
  | true => rw [Json.written]; decide +kernel

theorem length_ofText_le {text : String} {most : Nat} (short : text.toList.length ≤ most) :
    (Json.ofText text).written.length ≤ 6 * most + 2 := by
  have spelled := @Json.length_spelled_le text
  rw [Json.ofText, Json.written, Json.quoted, List.length_cons, List.length_append,
    List.length_singleton]
  omega

theorem length_member_le {name : String} {most : Nat} (short : name.toList.length ≤ most) :
    (Json.quoted (Json.spelled name)).length ≤ 6 * most + 2 := by
  have text := length_ofText_le short
  rwa [Json.ofText, Json.written] at text

/-- The length of a header fits into four bytes. -/
theorem length_written_lt (version : header.version = currentVersion)
    (createdAt : header.createdAt.Valid) (algorithm : ∀ name ∈ header.algorithm, name = cipher) :
    header.toJson.written.length < Nat.pow 256 4 := by
  have room : Nat.pow 256 4 = 4294967296 := rfl
  have number : (Json.ofInt header.version).written.length = 1 := by
    rw [version, Json.ofInt, Json.written]
    decide +kernel
  have instant := length_ofText_le (Instant.length_toText_le createdAt)
  have name : (Json.ofOption Json.ofText header.algorithm).written.length ≤ 6 * 17 + 2 := by
    cases found : header.algorithm with
    | none =>
        rw [Json.ofOption, Json.written]
        decide +kernel
    | some name => exact length_ofText_le (by rw [algorithm name found]; decide)
  have encrypted := @length_boolean_le header.encrypted
  have compressed := @length_boolean_le header.compressed
  have first := @length_member_le "version" 9 (by decide)
  have second := @length_member_le "createdAt" 9 (by decide)
  have third := @length_member_le "encrypted" 10 (by decide)
  have fourth := @length_member_le "compressed" 10 (by decide)
  have fifth := @length_member_le "algorithm" 10 (by decide)
  rw [toJson, Json.ofMembers, Json.written]
  simp only [List.map_cons, List.map_nil, Json.writtenMembers_cons, Json.writtenMembers,
    List.length_append, List.length_cons, List.length_nil]
  omega

end Header

namespace SnapshotParts

variable {header : Header} {headerBytes payload : Bytes}

/-- A snapshot is cut where it was put together. -/
theorem ofBytes_toBytes (version : header.version = Header.currentVersion)
    (createdAt : header.createdAt.Valid)
    (algorithm : ∀ name ∈ header.algorithm, name = Header.cipher) :
    ofBytes (toBytes header.toJson.written payload) =
      .ok { header, headerBytes := header.toJson.written, payload } := by
  have fits := Header.length_written_lt version createdAt algorithm
  have read : (Json.ofBytes? header.toJson.written).bind Header.ofJson? = some header := by
    rw [Json.ofBytes?_written Header.readable_toJson, Option.bind_some,
      Header.ofJson?_toJson version createdAt]
  have checked : header.check = .ok () := by
    rw [Header.check, guarded_eq_ok_iff]
    refine ⟨not_not_intro version, ?_⟩
    cases found : header.algorithm with
    | none => rfl
    | some name => exact if_pos (algorithm name found)
  generalize header.toJson.written = bytes at fits read ⊢
  have four : (Bytes.littleEndian 4 bytes.length).length = 4 := Bytes.length_littleEndian
  have counted : Bytes.number (Bytes.littleEndian 4 bytes.length) = bytes.length :=
    Bytes.number_littleEndian_of_lt fits
  have long : ¬ (Bytes.littleEndian 4 bytes.length ++ (bytes ++ payload)).length < 4 := by
    rw [List.length_append, four]
    omega
  have whole : ¬ (bytes ++ payload).length < bytes.length := by
    rw [List.length_append]
    omega
  rw [ofBytes, toBytes]
  simp only [long, if_false, List.take_left' four, counted, List.drop_left' four, whole,
    List.take_left, List.drop_left, read, checked, ok_bind]
  rfl

end SnapshotParts

namespace Snapshot

variable {state : State} {settings : Settings} {header : Header} {content : Bytes}

/-- The header of a snapshot that is saved under some settings. -/
def headerUnder (settings : Settings) : Header :=
  { version := Header.currentVersion, createdAt := settings.createdAt
    encrypted := settings.key.isSome, compressed := settings.compress
    algorithm := settings.key.map fun _ => Header.cipher }

/-- The payload of such a snapshot. -/
def payloadUnder (settings : Settings) (content : Bytes) : Bytes :=
  match settings.key with
  | some key =>
    Sealed.close key.bytes settings.nonce (headerUnder settings).toJson.written content
  | none => content

theorem save_eq_toBytes :
    save settings state =
      SnapshotParts.toBytes (headerUnder settings).toJson.written
        (payloadUnder settings (if settings.compress then Gzip.pack state.toJson.written
          else state.toJson.written)) := rfl

theorem unsealed_payloadUnder (length : settings.nonce.length = Sealed.nonceLength) :
    unsealed { header := headerUnder settings
               headerBytes := (headerUnder settings).toJson.written
               payload := payloadUnder settings content } settings.key = .ok content := by
  obtain ⟨key, compress, createdAt, nonce⟩ := settings
  cases key with
  | none => rfl
  | some key =>
      simp only [unsealed, headerUnder, payloadUnder, Option.isSome_some, if_true,
        Sealed.open?_close key.length_eq length]

theorem unpacked_pack {headerBytes payload : Bytes} :
    unpacked { header, headerBytes, payload }
      (if header.compressed then Gzip.pack content else content) = .ok content := by
  rw [unpacked]
  cases header.compressed with
  | true => simp only [if_true, Gzip.unpack?_pack]
  | false => rfl

/-- What was packed and sealed is opened again under the same key. So loading restores what is
read from the document that was saved. -/
theorem load_save_eq (createdAt : settings.createdAt.Valid)
    (length : settings.nonce.length = Sealed.nonceLength) :
    load settings.key (save settings state) =
      match State.ofJson? state.toJson with
      | some spelled => spelled.restore
      | none => .error .invalidPayload := by
  have document : (Json.ofBytes? state.toJson.written).bind State.ofJson? =
      State.ofJson? state.toJson := by
    rw [Json.ofBytes?_written State.readable_toJson, Option.bind_some]
  have algorithm : ∀ name ∈ (headerUnder settings).algorithm, name = Header.cipher := by
    intro name found
    obtain ⟨key, -, rfl⟩ := Option.map_eq_some_iff.mp found
    rfl
  have header : (headerUnder settings).createdAt.Valid := createdAt
  have packed {headerBytes payload : Bytes} :
      unpacked { header := headerUnder settings, headerBytes, payload }
        (if settings.compress then Gzip.pack state.toJson.written else state.toJson.written) =
          .ok state.toJson.written := unpacked_pack
  rw [load, save_eq_toBytes, SnapshotParts.ofBytes_toBytes rfl header algorithm, ok_bind,
    unsealed_payloadUnder length, ok_bind, packed, ok_bind, document]
  rfl

/-- The snapshot of a well-formed state is loaded under every key and compression. -/
theorem load_save (wellFormed : state.WellFormed) (reads : state.ReadsBack)
    (createdAt : settings.createdAt.Valid) (length : settings.nonce.length = Sealed.nonceLength) :
    load settings.key (save settings state) = .ok state.kept := by
  rw [load_save_eq createdAt length,
    State.ofJson?_toJson wellFormed.store.relations wellFormed.access.rolesFixed reads]
  exact State.restore_unindexed wellFormed

end Snapshot

/-- What of a relation a snapshot keeps. The key indexes follow from it. -/
def Relation.content (relation : Relation) : Table × List Row × Int64 :=
  (relation.schema, relation.rows, relation.nextId)

namespace State

variable {state : State}

/-- The relations of a state without their key indexes, and its roles and users. -/
def content (state : State) : Directory (Table × List Row × Int64) × Access :=
  (state.store.relations.mapped Relation.content, state.access)

theorem content_kept :
    state.kept.content =
      (state.store.relations.mapped fun relation =>
        (relation.schema.kept, relation.rows, relation.nextId), state.access) := by
  have entries : ((state.store.relations.mapped Relation.kept).mapped Relation.content) =
      state.store.relations.mapped fun relation =>
        (relation.schema.kept, relation.rows, relation.nextId) := by
    refine Directory.ext_entries ?_
    simp only [Directory.mapped, List.map_map]
    rfl
  exact congrArg (·, state.access) entries

theorem content_kept_eq_iff :
    state.kept.content = state.content ↔
      ∀ entry ∈ state.store.relations.entries, entry.2.schema.kept = entry.2.schema := by
  rw [content_kept, content, Prod.mk.injEq, and_iff_left rfl]
  constructor
  · intro same
    have entries := congrArg Directory.entries same
    simp only [Directory.mapped, List.map_inj_left] at entries
    exact fun entry member => congrArg (fun found => found.2.1) (entries entry member)
  · intro same
    refine Directory.ext_entries (List.map_congr_left fun entry member => ?_)
    exact congrArg (fun schema => (entry.1, schema, entry.2.rows, entry.2.nextId))
      (same entry member)

end State

theorem Value.isKept_iff {value : Value} :
    value.isKept = true ↔ value ≠ .null ∧ ∀ x, value = .real x → x.isFinite = true := by
  cases value <;> simp [isKept]

namespace Database

variable {database : Database} {state : State} {settings : Snapshot.Settings}

theorem Reachable.held_wellFormed (reached : database.Reachable)
    (held : state = database.state ∨ state = database.committed) : state.WellFormed := by
  obtain ⟨current, saved⟩ := reached.wellFormed
  rcases held with rfl | rfl
  · exact current
  · rw [committed]
    cases before : database.undo with
    | none => exact current
    | some former => exact saved former before

/-- The snapshot of a state that a database came to, by whatever calls, is loaded under every
key and compression. It brings back the roles, the users and the relations with their rows and
counters, and the schemas but for defaults that are written as null. So what comes back is what
was saved just where no column has a null or a real that is not finite for its default. -/
theorem snapshot_restores_iff (reached : database.Reachable)
    (held : state = database.state ∨ state = database.committed) (reads : state.ReadsBack)
    (createdAt : settings.createdAt.Valid) (length : settings.nonce.length = Sealed.nonceLength) :
    ∃ restored, Snapshot.load settings.key (Snapshot.save settings state) = .ok restored ∧
      restored.content =
        (state.store.relations.mapped fun relation =>
          (relation.schema.kept, relation.rows, relation.nextId), state.access) ∧
      (restored.content = state.content ↔
        ∀ entry ∈ state.store.relations.entries, ∀ column ∈ entry.2.schema.columns,
          ∀ value ∈ column.default, value ≠ .null ∧
            ∀ x, value = .real x → x.isFinite = true) := by
  refine ⟨state.kept, ?_, State.content_kept, ?_⟩
  · exact Snapshot.load_save (reached.held_wellFormed held) reads createdAt length
  · simp only [State.content_kept_eq_iff, Table.kept_eq_iff, Value.isKept_iff]

/-- A default that is null is no default any more, whatever else is as it was. -/
theorem null_default_not_restored :
    let database := fromTexts [
      "CREATE TABLE notes (id INTEGER PRIMARY KEY, body TEXT DEFAULT NULL, weight REAL DEFAULT 1.5)",
      "INSERT INTO notes (body) VALUES ('first')"]
    let settings : Snapshot.Settings :=
      { key := some ⟨List.replicate 32 7, rfl⟩, compress := true, createdAt := ⟨0, 0⟩
        nonce := List.replicate 12 0 }
    ∃ restored,
      Snapshot.load settings.key (Snapshot.save settings database.state) = .ok restored ∧
      restored.content ≠ database.state.content := by
  intro database settings
  have reads : database.state.ReadsBack := by decide +kernel
  have null : ¬ ∀ entry ∈ database.state.store.relations.entries,
      ∀ column ∈ entry.2.schema.columns, ∀ value ∈ column.default, value.isKept = true := by
    decide +kernel
  obtain ⟨restored, loaded, -, same⟩ := @snapshot_restores_iff database database.state settings
    fromTexts_reachable (.inl rfl) reads ⟨by decide +kernel, by decide⟩ rfl
  refine ⟨restored, loaded, fun equal => null ?_⟩
  simpa only [Value.isKept_iff] using same.mp equal

end Database

end Coffer
