import Coffer.Proofs.KeptStore
import Coffer.Proofs.Snapshot

namespace Coffer

/-! # Databases that were loaded

Whatever statements are run on a database that was loaded from a snapshot, and by whomever,
they report what they would have reported on the database that was saved.
-/

namespace Database

variable {database first second : Database} {changed other : Except Error Database}
variable {outcome : Outcome} {statement : Language.Statement} {parameters : List Value}

/-- What statements report that are run one after another. -/
def answers (database : Database) : List Request → List (Except Error Outcome)
  | [] => []
  | request :: rest =>
    (database.perform request).2 :: (database.perform request).1.answers rest

/-- What snapshots would keep of a database, now and after a rollback. -/
def kept (database : Database) : State × Option State :=
  (database.state.kept, database.undo.map State.kept)

/-- What a statement leaves, as far as it is kept, and what it reports. -/
def keptResult : Database × Except Error Outcome → (State × Option State) × Except Error Outcome :=
  Prod.map kept id

/-- What is known of all databases that statements lead to. -/
structure Sound (database : Database) : Prop where
  wellFormed : database.WellFormed
  finite : database.FiniteDefaults

theorem perform_sound {request : Request} (sound : database.Sound) :
    (database.perform request).1.Sound :=
  ⟨perform_wellFormed request sound.wellFormed, perform_finite sound.wellFormed sound.finite⟩

/-! ## One statement -/

section

variable (same : first.kept = second.kept)
include same

theorem access_congr : first.state.access = second.state.access :=
  congrArg (fun kept : State × Option State => kept.1.access) same

theorem store_congr : first.state.store.kept = second.state.store.kept :=
  congrArg (fun kept : State × Option State => kept.1.store) same

theorem authorize_congr : first.authorize = second.authorize := by
  funext caller type
  rw [authorize, access_congr same, authorize]

theorem parse_congr : first.parse = second.parse := by
  funext request
  rw [parse_eq, authorize_congr same, parse_eq]

theorem check_congr : first.check = second.check := by
  funext parsed request
  rw [check, authorize_congr same, check]

theorem inTransaction_congr : first.inTransaction = second.inTransaction := by
  have open_ := congrArg (fun kept : State × Option State => kept.2.isSome) same
  simpa [kept, inTransaction] using open_

theorem settle_congr (changes : changed.map kept = other.map kept) :
    keptResult (first.settle changed outcome) = keptResult (second.settle other outcome) := by
  cases changed with
  | error error =>
      cases other with
      | error another =>
          cases changes
          exact congrArg (fun left => (left, Except.error error)) same
      | ok after => cases changes
  | ok after =>
      cases other with
      | error another => cases changes
      | ok otherAfter => exact congrArg (fun left => (left, Except.ok outcome)) (Except.ok.inj changes)

theorem begin_congr : first.begin.map kept = second.begin.map kept := by
  rw [begin, inTransaction_congr same, begin]
  split
  · rfl
  · have state : first.state.kept = second.state.kept := congrArg Prod.fst same
    exact congrArg (fun state => Except.ok (state, some state)) state

theorem commit_congr : first.commit.map kept = second.commit.map kept := by
  rw [commit, inTransaction_congr same, commit]
  split
  · have state : first.state.kept = second.state.kept := congrArg Prod.fst same
    exact congrArg (fun state => Except.ok (state, none)) state
  · rfl

theorem rollback_congr : first.rollback.map kept = second.rollback.map kept := by
  have undo : first.undo.map State.kept = second.undo.map State.kept := congrArg Prod.snd same
  rw [rollback, rollback]
  cases before : first.undo with
  | none =>
      cases other : second.undo with
      | none => rfl
      | some state => simp [before, other] at undo
  | some state =>
      cases other : second.undo with
      | none => simp [before, other] at undo
      | some otherState =>
          rw [before, other] at undo
          exact congrArg (fun state => Except.ok (state, none)) (Option.some.inj undo)

theorem withAccess_congr {access : Access} :
    (first.withAccess access).kept = (second.withAccess access).kept := by
  have undo : first.undo.map State.kept = second.undo.map State.kept := congrArg Prod.snd same
  have store := store_congr same
  exact Prod.ext (congrArg (State.mk · access) store) undo

theorem withStore_congr {store other : Store} (alike : store.kept = other.kept) :
    (first.withStore store).kept = (second.withStore other).kept := by
  have undo : first.undo.map State.kept = second.undo.map State.kept := congrArg Prod.snd same
  refine Prod.ext ?_ undo
  change State.mk store.kept first.state.access = State.mk other.kept second.state.access
  rw [alike, access_congr same]

theorem grant_congr {privilege : Language.Privilege} :
    (first.grant privilege).map kept = (second.grant privilege).map kept := by
  have granted : (do
        return first.withAccess (← first.state.access.grant privilege.grantee)).map kept =
      (do return second.withAccess (← second.state.access.grant privilege.grantee)).map kept := by
    rw [access_congr same]
    cases second.state.access.grant privilege.grantee with
    | error error => rfl
    | ok access => exact congrArg Except.ok (withAccess_congr same)
  rw [grant, grant]
  cases privilege.table with
  | none => exact granted
  | some table =>
      have tables : (first.state.store.table table).map Table.kept =
          (second.state.store.table table).map Table.kept := by
        rw [← Store.table_kept, store_congr same, Store.table_kept]
      exact bind_map_congr tables fun _ _ _ => granted

/-- A statement is planned and run alike. -/
theorem runPlanned_congr (firstSound : first.Sound) (secondSound : second.Sound) :
    keptResult (first.runPlanned statement parameters) =
      keptResult (second.runPlanned statement parameters) := by
  have reduced {store : Store} (wellFormed : store.WellFormed) (finite : store.FiniteDefaults) :
      (do
        let plan ← planStatement { store := store.kept, parameters } statement
        plan.run store.kept).map Plan.keptResult =
      (do
        let plan ← planStatement { store, parameters } statement
        plan.run store).map Plan.keptResult := by
    rw [planStatement_kept]
    cases planStatement { store, parameters } statement with
    | error error => rfl
    | ok plan => exact Plan.run_kept wellFormed finite
  have results := (reduced firstSound.wellFormed.current.store firstSound.finite.current).symm.trans
    ((store_congr same).symm ▸
      reduced secondSound.wellFormed.current.store secondSound.finite.current)
  rw [runPlanned_eq firstSound.wellFormed, runPlanned_eq secondSound.wellFormed]
  cases ran : (do
      let plan ← planStatement { store := first.state.store, parameters } statement
      plan.run first.state.store) with
  | error error =>
      cases also : (do
          let plan ← planStatement { store := second.state.store, parameters } statement
          plan.run second.state.store) with
      | error another =>
          rw [ran, also] at results
          cases results
          exact congrArg (fun left => (left, Except.error error)) same
      | ok result =>
          rw [ran, also] at results
          cases results
  | ok result =>
      cases also : (do
          let plan ← planStatement { store := second.state.store, parameters } statement
          plan.run second.state.store) with
      | error another =>
          rw [ran, also] at results
          cases results
      | ok other =>
          rw [ran, also] at results
          obtain ⟨alike, outcome⟩ := Prod.mk.inj (Except.ok.inj results)
          exact Prod.ext (withStore_congr same alike) (congrArg Except.ok outcome)

theorem run_congr (firstSound : first.Sound) (secondSound : second.Sound) :
    keptResult (first.run statement parameters) = keptResult (second.run statement parameters) := by
  cases statement with
  | begin => exact settle_congr same (begin_congr same)
  | commit => exact settle_congr same (commit_congr same)
  | rollback => exact settle_congr same (rollback_congr same)
  | grant privilege => exact settle_congr same (grant_congr same)
  | revoke privilege => exact congrArg (fun left => (left, Except.ok _)) same
  | _ => exact runPlanned_congr same firstSound secondSound

theorem perform_congr {request : Request} (firstSound : first.Sound) (secondSound : second.Sound) :
    keptResult (first.perform request) = keptResult (second.perform request) := by
  have refused {error : Error} :
      keptResult (first, .error error) = keptResult (second, .error error) :=
    congrArg (fun left => (left, Except.error error)) same
  rw [perform_eq, perform_eq, parse_congr same]
  cases second.parse request with
  | error error => exact refused
  | ok parsed =>
      dsimp only
      rw [performParsed_eq, performParsed_eq, check_congr same]
      cases second.check parsed request with
      | error error => exact refused
      | ok _ => exact run_congr same firstSound secondSound

/-- Whatever is asked, databases of which the same is kept answer the same. -/
theorem answers_congr {requests : List Request} (firstSound : first.Sound)
    (secondSound : second.Sound) : first.answers requests = second.answers requests := by
  induction requests generalizing first second with
  | nil => rfl
  | cons request others ih =>
      have performed := @perform_congr first second same request firstSound secondSound
      have left : (first.perform request).1.kept = (second.perform request).1.kept :=
        congrArg Prod.fst performed
      have reported : (first.perform request).2 = (second.perform request).2 :=
        congrArg (fun result : (State × Option State) × Except Error Outcome => result.2) performed
      rw [answers, reported, ih left (perform_sound firstSound) (perform_sound secondSound), answers]

end

/-! ## Loading -/

variable {saving : Snapshot.Settings} {settings : Settings}

theorem Reachable.sound (reached : database.Reachable) : database.Sound :=
  ⟨reached.wellFormed, reached.finiteDefaults⟩

/-- The database that holds what was kept of a state. -/
def holding (settings : Settings) (saving : Snapshot.Settings) (state : State) : Database :=
  { state := state.kept, undo := none, log := [], settings, key := saving.key }

theorem holding_sound (sound : database.Sound) :
    (holding settings saving database.state).Sound where
  wellFormed :=
    { current := ⟨Store.kept_wellFormed sound.wellFormed.current.store,
        sound.wellFormed.current.access⟩
      saved := by simp [holding] }
  finite :=
    { current := Store.kept_finite
      saved := by simp [holding] }

theorem kept_holding (outside : database.undo = none) :
    (holding settings saving database.state).kept = database.kept := by
  rw [kept, kept, outside]
  exact congrArg (fun store => (State.mk store database.state.access, none)) Store.kept_kept

/-- A database that is loaded from a snapshot of another one, under the key and compression
that it was saved under, whatever they are, cannot be told from that one by statements: all
runs of them, of any callers and with any parameters, report the same results and fail for
the same reasons. The other database is one that any calls lead to, with no open transaction. -/
theorem loaded_answers (reached : database.Reachable) (closed : database.inTransaction = false)
    (reads : database.state.ReadsBack) (createdAt : saving.createdAt.Valid)
    (length : saving.nonce.length = Sealed.nonceLength) (keyed : settings.key = .ok saving.key) :
    ∃ restored, load settings (Snapshot.save saving database.committed) = .ok restored ∧
      ∀ requests, restored.answers requests = database.answers requests := by
  have outside : database.undo = none := by simpa [inTransaction] using closed
  have saved : database.committed = database.state := by rw [committed, outside, Option.getD_none]
  have loaded := Snapshot.load_save reached.wellFormed.current reads createdAt length
  refine ⟨holding settings saving database.state, ?_, fun requests => ?_⟩
  · simp only [load, new, ofState, keyed, ok_bind, saved, pure, Except.pure, loaded]
    rfl
  · exact answers_congr (kept_holding outside) (holding_sound reached.sound) reached.sound

/-- The default that is lost does not show, and neither the key of the first row nor the number
of the row that was deleted is given again. -/
theorem loaded_answers_after_deletion :
    let database := fromTexts [
      "CREATE TABLE notes (id INTEGER PRIMARY KEY, body TEXT UNIQUE, state TEXT DEFAULT NULL)",
      "INSERT INTO notes (body) VALUES ('first'), ('second')", "DELETE FROM notes WHERE id = 2"]
    let saving : Snapshot.Settings :=
      { key := some ⟨List.replicate 32 7, rfl⟩, compress := true, createdAt := ⟨0, 0⟩
        nonce := List.replicate 12 0 }
    let settings : Settings :=
      { Settings.standard with
        encryptionKey := "0707070707070707070707070707070707070707070707070707070707070707" }
    let requests : List Request := [
      { sql := "INSERT INTO notes (body) VALUES (?)", parameters := [.text "first"]
        caller := .local },
      { sql := "INSERT INTO notes (body) VALUES (?)", parameters := [.text "third"]
        caller := .role "operator" },
      { sql := "SELECT state FROM notes", parameters := [], caller := .role "viewer" }]
    ∃ restored, load settings (Snapshot.save saving database.committed) = .ok restored ∧
      restored.answers requests = [.error (.notUnique "notes" "body"), .ok (.inserted 1 (some 3)),
        .ok (.rows ⟨["state"], [[.null], [.null]]⟩)] := by
  intro database saving settings requests
  obtain ⟨restored, loaded, same⟩ := @loaded_answers database saving settings fromTexts_reachable
    (by decide +kernel) (by decide +kernel) ⟨by decide +kernel, by decide⟩ rfl
    (by decide +kernel)
  exact ⟨restored, loaded, (same requests).trans (by decide +kernel)⟩

end Database

end Coffer
