import Coffer.Proofs.Admission
import Coffer.Proofs.Transaction

namespace Coffer

/-! # The roles of users

Users are added under roles that there are. Users that a grant brings about are all put under one
role, which the roles of a snapshot need not have.
-/

namespace Table

variable {table : Table} {role : String}

theorem checkColumns_ne_userRole {name : String} {earlier : List String} {columns : List Column} :
    checkColumns name earlier columns ≠ .error (.userRole role) := by
  induction columns generalizing earlier with
  | nil => simp [checkColumns]
  | cons column others ih =>
      intro failed
      simp only [checkColumns] at failed
      split at failed
      · cases failed
      · rcases bind_eq_error_iff.mp failed with refused | ⟨_, -, later⟩
        · simp only [Column.check] at refused
          split at refused
          · cases refused
          · split at refused
            · cases refused
            · split at refused <;> cases refused
        · exact ih later

theorem check_ne_userRole : table.check ≠ .error (.userRole role) := by
  intro failed
  simp only [check] at failed
  split at failed
  · cases failed
  · split at failed
    · cases failed
    · exact checkColumns_ne_userRole failed
    · cases failed

end Table

namespace Relation

variable {relation : Relation} {name role : String}

theorem checkRow_ne_userRole {row : Row} : relation.checkRow name row ≠ .error (.userRole role) := by
  intro failed
  simp only [checkRow] at failed
  split at failed
  · cases failed
  · split at failed <;> cases failed

theorem restore_ne_userRole : relation.restore name ≠ .error (.userRole role) := by
  intro failed
  simp only [restore] at failed
  split at failed
  · cases failed
  · rcases bind_eq_error_iff.mp failed with refused | ⟨_, -, failed⟩
    · exact Table.check_ne_userRole refused
    · rcases bind_eq_error_iff.mp failed with refused | ⟨_, -, failed⟩
      · obtain ⟨row, -, invalid⟩ := forM_eq_error refused
        exact checkRow_ne_userRole invalid
      · split at failed <;> cases failed

end Relation

theorem Store.restoreAll_ne_userRole {entries : List (String × Relation)} {role : String} :
    restoreAll entries ≠ .error (.userRole role) := by
  induction entries with
  | nil => simp [restoreAll]
  | cons entry others ih =>
      intro failed
      rw [restoreAll] at failed
      rcases bind_eq_error_iff.mp failed with refused | ⟨_, -, failed⟩
      · exact Relation.restore_ne_userRole refused
      · rcases bind_eq_error_iff.mp failed with refused | ⟨_, -, failed⟩
        · exact ih refused
        · cases failed

namespace State

variable {state : State} {role : String}

/-- Only a role that is none of the roles is reported as unknown. -/
theorem restore_ne_userRole (known : state.access.RolesKnown) :
    state.restore ≠ .error (.userRole role) := by
  intro failed
  rw [restore, strayRole?_eq_none_iff.mpr known] at failed
  rcases bind_eq_error_iff.mp failed with refused | ⟨_, -, failed⟩
  · rw [Store.restore] at refused
    rcases bind_eq_error_iff.mp refused with refused | ⟨_, -, failed⟩
    · exact Store.restoreAll_ne_userRole refused
    · cases failed
  · cases failed

/-- Where the users of a state stand under roles that there are, its snapshot is not rejected for
an unknown role. -/
theorem load_save_ne_userRole {settings : Snapshot.Settings} (known : state.access.RolesKnown)
    (createdAt : settings.createdAt.Valid) (length : settings.nonce.length = Sealed.nonceLength) :
    Snapshot.load settings.key (Snapshot.save settings state) ≠ .error (.userRole role) := by
  rw [Snapshot.load_save_eq createdAt length, ofJson?_toJson_eq]
  cases Directory.ofJson? Relation.ofJson? (state.store.relations.toJson Relation.toJson) with
  | none => simp
  | some relations =>
      refine restore_ne_userRole fun entry member => ?_
      rw [Directory.contains_mapped]
      exact known entry member

end State

/-- The users of a database stand under given roles, as do those of the state that a rollback
brings back. -/
structure Database.Under (roles : Directory (List Permission)) (database : Database) : Prop where
  current : database.state.access.Under roles
  saved : ∀ state, database.undo = some state → state.access.Under roles

namespace Database

variable {database after : Database} {roles : Directory (List Permission)} {settings : Settings}
variable {statement : Language.Statement} {parameters : List Value} {call : Call}

theorem runPlanned_under (under : database.Under roles) :
    (database.runPlanned statement parameters).1.Under roles := by
  rw [runPlanned]
  split
  · exact ⟨under.current, under.saved⟩
  · exact under

theorem run_under (under : database.Under roles)
    (known : roles.contains Access.grantedRole = true) :
    (database.run statement parameters).1.Under roles := by
  cases statement with
  | begin =>
      refine settle_holds under fun after begun => ?_
      simp only [begin] at begun
      split at begun
      · cases begun
      · cases begun
        exact ⟨under.current, fun state saved => Option.some.inj saved ▸ under.current⟩
  | commit =>
      refine settle_holds under fun after committed => ?_
      simp only [commit] at committed
      split at committed
      · cases committed
        exact ⟨under.current, by simp⟩
      · cases committed
  | rollback =>
      refine settle_holds under fun after returned => ?_
      simp only [rollback] at returned
      split at returned
      · rename_i state saved
        cases returned
        exact ⟨under.saved state saved, by simp⟩
      · cases returned
  | grant privilege =>
      refine settle_holds under fun after granted => ?_
      obtain ⟨access, grants, rfl⟩ := grant_eq_ok granted
      exact ⟨under.current.grant known grants, under.saved⟩
  | revoke privilege => exact under
  | _ => exact runPlanned_under under

theorem perform_under (request : Request) (under : database.Under roles)
    (known : roles.contains Access.grantedRole = true) :
    (database.perform request).1.Under roles := by
  obtain ⟨parsed, -, -, ran⟩ | ⟨error, failed⟩ := database.perform_cases request
  · rw [ran]
    exact run_under under known
  · rwa [failed]

theorem step_under (under : database.Under roles)
    (known : roles.contains Access.grantedRole = true) : (database.step call).Under roles := by
  cases call with
  | query request => exact perform_under request under known
  | execute request =>
      have performed := perform_under request under known
      rw [step, (execute_eq database request).1]
      exact ⟨performed.current, performed.saved⟩
  | addUser salt username password role =>
      simp only [step, addUser]
      split
      · rename_i after added
        simp only [bind_eq_ok_iff, pure_eq_ok_iff] at added
        obtain ⟨access, adds, rfl⟩ := added
        exact ⟨under.current.addUser adds, under.saved⟩
      · exact under
  | removeUser username => exact ⟨under.current.removeUser, under.saved⟩

theorem after_under {calls : List Call} (under : database.Under roles)
    (known : roles.contains Access.grantedRole = true) : (database.after calls).Under roles := by
  induction calls generalizing database with
  | nil => exact under
  | cons call others ih => exact ih (step_under under known)

theorem Under.committed (under : database.Under roles) : database.committed.access.Under roles := by
  rw [Database.committed]
  cases saved : database.undo with
  | none => exact under.current
  | some state => exact under.saved state saved

theorem new_under (started : Database.new settings = .ok database) :
    database.Under database.state.access.roles := by
  obtain ⟨⟨-, access⟩, saved⟩ := initial_wellFormed started
  refine ⟨⟨rfl, access.rolesKnown⟩, fun state found => ?_⟩
  rw [access.rolesFixed]
  exact Access.wellFormed_iff_under.mp (saved state found).access

theorem load_under {blob : Bytes} (loaded : Database.load settings blob = .ok database) :
    database.Under database.state.access.roles := by
  simp only [load, new, ofState, bind_eq_ok_iff, pure_eq_ok_iff] at loaded
  obtain ⟨_, ⟨key, -, rfl⟩, state, read, rfl⟩ := loaded
  rw [Snapshot.load_eq, bind_eq_ok_iff] at read
  obtain ⟨spelled, -, restored⟩ := read
  obtain ⟨-, known, rfl⟩ := State.restore_eq_ok_iff.mp restored
  exact ⟨⟨rfl, known⟩, by simp⟩

/-- What the text of a grant says, and how many placeholders it has. -/
def grantIn? (text : String) : Option (Language.Privilege × Nat) :=
  match Language.parseStatement text with
  | .ok (.grant privilege, count) => some (privilege, count)
  | _ => none

/-- Run by the program itself, a grant does what it says. -/
theorem perform_grant {text : String} {privilege : Language.Privilege}
    (read : grantIn? text = some (privilege, 0)) :
    database.perform { sql := text, parameters := [], caller := .local } =
      database.settle (database.grant privilege) (.granted privilege.grantee) := by
  rw [grantIn?] at read
  split at read
  · rename_i parsed
    cases read
    have accepted : Language.parse text =
        .ok { sql := Text.trim text, statement := .grant privilege, parameters := 0
              diagnosis := .clean } := by
      rw [Language.parse, parsed]
      rfl
    rw [perform_eq, parse_eq, accepted]
    rfl
  · cases read

/-- A user of whom a grant to them is the last that was done stands under the role of grants. -/
theorem after_grant {text name : String} {privileges : Language.Privileges}
    (read : grantIn? text = some (⟨privileges, none, name⟩, 0)) (named : name.isEmpty = false) :
    let granted := database.after
      [.removeUser name, .query { sql := text, parameters := [], caller := .local }]
    (name, { passwordHash := none, role := Access.grantedRole }) ∈
        granted.state.access.users.entries ∧
      granted.state.access.roles = database.state.access.roles := by
  have absent : (database.state.access.users.erase name).contains name = false := by
    rw [Directory.contains, Option.isSome_eq_false_iff, Option.isNone_iff_eq_none,
      Directory.get?_eq_none_iff]
    exact fun entry member => (Directory.mem_erase_iff.mp member).2
  have granted : (database.removeUser name).1.grant ⟨privileges, none, name⟩ =
      .ok ((database.removeUser name).1.withAccess
        { roles := database.state.access.roles
          users := (database.state.access.users.erase name).insert name
            { passwordHash := none, role := Access.grantedRole } }) := by
    simp only [grant, removeUser, Access.removeUser, withAccess, Access.grant, named, absent]
    rfl
  simp only [after, List.foldl_cons, List.foldl_nil, step, perform_grant read, granted]
  exact ⟨Directory.mem_insert_iff.mpr (.inl rfl), rfl⟩

/-- Whether users can come to stand under roles that there are not depends on one role alone, the
one that grants put users under. A database that nothing was done to has it; one that was loaded
need not. Where it is there, all users stand under roles that there are after any calls, as do
those of the committed state, whose snapshots are never rejected for an unknown role. -/
theorem roles_known_iff (opened : Database.new settings = .ok database ∨
      ∃ blob, Database.load settings blob = .ok database) :
    (∀ calls, (database.after calls).state.access.RolesKnown ∧
      (database.after calls).committed.access.RolesKnown ∧
      ∀ (createdAt : Instant) (nonce : Bytes) (role : String), createdAt.Valid →
        nonce.length = Sealed.nonceLength →
        Snapshot.load (database.after calls).key
          ((database.after calls).snapshot createdAt nonce) ≠ .error (.userRole role)) ↔
      database.state.access.roles.contains Access.grantedRole = true := by
  constructor
  · intro always
    -- The text is forgotten once it is read, so that nothing below reads it again.
    obtain ⟨text, read⟩ : ∃ text, grantIn? text =
        some (⟨.listed [.select], none, "guest"⟩, 0) :=
      ⟨"GRANT SELECT TO guest", by decide +kernel⟩
    obtain ⟨member, roles⟩ := @after_grant database _ _ _ read (by decide)
    rw [← roles]
    exact (always _).1 _ member
  · intro known calls
    have under : database.Under database.state.access.roles := by
      rcases opened with started | ⟨blob, loaded⟩
      · exact new_under started
      · exact load_under loaded
    have later : (database.after calls).Under database.state.access.roles :=
      after_under under known
    have committed := later.committed.rolesKnown
    refine ⟨later.current.rolesKnown, committed, fun createdAt nonce role valid length => ?_⟩
    let settings : Snapshot.Settings :=
      { key := (database.after calls).key, compress := (database.after calls).settings.compress
        createdAt, nonce }
    exact @State.load_save_ne_userRole _ role settings committed valid length

/-- A snapshot without the role of grants is loaded. After a grant the database writes one that
is not. -/
theorem granted_snapshot_rejected :
    let settings : Snapshot.Settings :=
      { key := none, compress := true, createdAt := ⟨0, 0⟩, nonce := List.replicate 12 0 }
    let state : State :=
      { store := .empty
        access := { roles := .ofList [("admin", Permission.every)], users := .empty } }
    let grant : Call :=
      .query { sql := "GRANT SELECT TO bob", parameters := [], caller := .local }
    ∃ database, Database.load .standard (Snapshot.save settings state) = .ok database ∧
      (¬ ∀ calls, (database.after calls).state.access.RolesKnown ∧
        (database.after calls).committed.access.RolesKnown ∧
        ∀ (createdAt : Instant) (nonce : Bytes) (role : String), createdAt.Valid →
          nonce.length = Sealed.nonceLength →
          Snapshot.load (database.after calls).key
            ((database.after calls).snapshot createdAt nonce) ≠ .error (.userRole role)) ∧
      Snapshot.load none ((database.after [grant]).snapshot settings.createdAt settings.nonce) =
        .error (.userRole "readonly") := by
  intro settings state grant
  have valid : settings.createdAt.Valid := ⟨by decide +kernel, by decide⟩
  have loaded : Snapshot.load none (Snapshot.save settings state) = .ok state := by
    refine (@Snapshot.load_save_eq state settings valid rfl).trans ?_
    decide +kernel
  have opened : Database.load .standard (Snapshot.save settings state) =
      .ok { fresh with state } := by
    rw [load, new_standard, ok_bind]
    exact bind_eq_ok_iff.mpr ⟨state, loaded, rfl⟩
  have lacking : ¬ state.access.roles.contains Access.grantedRole = true := by decide +kernel
  refine ⟨{ fresh with state }, opened, fun always => lacking ?_, ?_⟩
  · exact (roles_known_iff (.inr ⟨_, opened⟩)).mp always
  · have kept : (after { fresh with state } [grant]).key = none ∧
        (after { fresh with state } [grant]).settings.compress = true := by decide +kernel
    have granted : Snapshot.load none
        (Snapshot.save settings (after { fresh with state } [grant]).committed) =
          .error (.userRole "readonly") := by
      refine (@Snapshot.load_save_eq _ settings valid rfl).trans ?_
      decide +kernel
    generalize after { fresh with state } [grant] = later at kept granted ⊢
    rw [snapshot, kept.1, kept.2]
    exact granted

end Database

end Coffer
