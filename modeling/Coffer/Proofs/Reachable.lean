import Coffer.Database.Report
import Coffer.Proofs.InPlace

namespace Coffer

/-! # Databases that calls lead to

A database starts with nothing in it. Statements of any callers, whether they go well or
fail, and changes of its users lead to all others.
-/

/-- What may be asked of a database. -/
inductive Call where
  | query (request : Request)
  | execute (request : Request)
  | addUser (salt : Bytes) (username password role : String)
  | removeUser (username : String)

namespace Database

/-- The database after a call. -/
def step (database : Database) : Call → Database
  | .query request => (database.perform request).1
  | .execute request => (database.execute request).1
  | .addUser salt username password role =>
    match database.addUser salt username password role with
    | .ok after => after
    | .error _ => database
  | .removeUser username => (database.removeUser username).1

/-- The database after calls made one after another. -/
def after (database : Database) (calls : List Call) : Database :=
  calls.foldl step database

/-- A database that calls lead to from one that nothing was done to. -/
def Reachable (database : Database) : Prop :=
  ∃ settings initial calls, Database.new settings = .ok initial ∧
    initial.after calls = database

end Database

/-- Whether all users stand under roles that there are. -/
def Access.RolesKnown (access : Access) : Prop :=
  ∀ entry ∈ access.users.entries, access.roles.contains entry.2.role = true

/-- Users stand under roles that there are, and the roles are given ones. -/
structure Access.Under (roles : Directory (List Permission)) (access : Access) : Prop where
  rolesFixed : access.roles = roles
  rolesKnown : access.RolesKnown

/-- Users stand under roles that there are, and the roles are the fixed ones. -/
structure Access.WellFormed (access : Access) : Prop where
  rolesFixed : access.roles = Access.standard.roles
  rolesKnown : ∀ entry ∈ access.users.entries, access.roles.contains entry.2.role = true

structure State.WellFormed (state : State) : Prop where
  store : state.store.WellFormed
  access : state.access.WellFormed

/-- A database whose state is well-formed, as is the one that a rollback brings back. -/
structure Database.WellFormed (database : Database) : Prop where
  current : database.state.WellFormed
  saved : ∀ state, database.undo = some state → state.WellFormed

namespace Access

variable {access after : Access} {salt : Bytes} {username password role grantee : String}
variable {roles : Directory (List Permission)}

theorem wellFormed_iff_under : access.WellFormed ↔ access.Under standard.roles :=
  ⟨fun ⟨fixed, known⟩ => ⟨fixed, known⟩, fun ⟨fixed, known⟩ => ⟨fixed, known⟩⟩

theorem standard_wellFormed : Access.standard.WellFormed :=
  ⟨rfl, by simp [Access.standard, Directory.empty]⟩

theorem Under.insert {user : User} (under : access.Under roles)
    (known : roles.contains user.role = true) :
    Under roles { access with users := access.users.insert username user } := by
  refine ⟨under.rolesFixed, fun entry member => ?_⟩
  rcases Directory.mem_insert_iff.mp member with rfl | ⟨former, -⟩
  · exact under.rolesFixed ▸ known
  · exact under.rolesKnown entry former

theorem Under.addUser (under : access.Under roles)
    (added : access.addUser salt username password role = .ok after) : after.Under roles := by
  simp only [Access.addUser, guarded_eq_ok_iff, pure_eq_ok_iff] at added
  obtain ⟨-, known, rfl⟩ := added
  exact under.insert (under.rolesFixed ▸ by simpa using known)

theorem Under.removeUser (under : access.Under roles) : (access.removeUser username).1.Under roles :=
  ⟨under.rolesFixed, fun entry member =>
    under.rolesKnown entry (Directory.mem_erase_iff.mp member).1⟩

/-- A grant that brings a user about puts it under one fixed role, without a look at the roles
that there are. -/
theorem Under.grant (under : access.Under roles) (known : roles.contains grantedRole = true)
    (granted : access.grant grantee = .ok after) : after.Under roles := by
  simp only [Access.grant] at granted
  split at granted
  · cases granted
  · split at granted
    · cases granted
      exact under
    · cases granted
      exact under.insert known

theorem addUser_wellFormed (wellFormed : access.WellFormed)
    (added : access.addUser salt username password role = .ok after) : after.WellFormed :=
  wellFormed_iff_under.mpr ((wellFormed_iff_under.mp wellFormed).addUser added)

theorem removeUser_wellFormed (wellFormed : access.WellFormed) :
    (access.removeUser username).1.WellFormed :=
  wellFormed_iff_under.mpr (wellFormed_iff_under.mp wellFormed).removeUser

theorem grant_wellFormed (wellFormed : access.WellFormed)
    (granted : access.grant grantee = .ok after) : after.WellFormed :=
  wellFormed_iff_under.mpr ((wellFormed_iff_under.mp wellFormed).grant rfl granted)

end Access

/-- A plan that makes no column. -/
def Plan.KeepsColumns : Plan → Prop
  | .createTable .. => False
  | .alterTable _ (.addColumn _) => False
  | _ => True

/-- New columns come from what a statement defines, and a new table was checked. -/
theorem planStatement_cases {context : PlanContext} {statement : Language.Statement} {plan : Plan}
    (planned : planStatement context statement = .ok plan) :
    (∃ create definitions columns keyed, statement = .create create ∧
      create.definition = .table definitions ∧
      definitions.mapM (planColumn context) = .ok columns ∧
      Table.withKey create.name columns = .ok keyed ∧
      Table.check { name := create.name, columns := keyed, indexes := [] } = .ok () ∧
      plan = .createTable { name := create.name, columns := keyed, indexes := [] }
        create.ifNotExists) ∨
    (∃ alter definition column, statement = .alter alter ∧
      alter.action = .addColumn definition ∧ planColumn context definition = .ok column ∧
      plan = .alterTable alter.table (.addColumn column)) ∨ plan.KeepsColumns := by
  cases statement with
  | create create =>
      simp only [planStatement, planCreate] at planned
      split at planned
      · rename_i definitions defines
        simp only [bind_eq_ok_iff, pure_eq_ok_iff, Table.declare] at planned
        obtain ⟨columns, made, table, ⟨keyed, withKey, _, checked, rfl⟩, rfl⟩ := planned
        exact .inl ⟨create, definitions, columns, keyed, rfl, defines, made, withKey, checked, rfl⟩
      · cases pure_eq_ok_iff.mp planned
        exact .inr (.inr trivial)
      · cases planned
  | drop drop =>
      simp only [planStatement, planDrop] at planned
      split at planned <;> cases planned <;> exact .inr (.inr trivial)
  | alter alter =>
      simp only [planStatement, planAlter] at planned
      split at planned
      · rename_i definition adds
        simp only [bind_eq_ok_iff, guarded_eq_ok_iff, pure_eq_ok_iff] at planned
        obtain ⟨column, made, -, rfl⟩ := planned
        exact .inr (.inl ⟨alter, definition, column, rfl, adds, made, rfl⟩)
      · cases pure_eq_ok_iff.mp planned
        exact .inr (.inr trivial)
      · cases pure_eq_ok_iff.mp planned
        exact .inr (.inr trivial)
  | insert insert =>
      simp only [planStatement, planInsert, bind_eq_ok_iff] at planned
      obtain ⟨table, -, _, -, planned⟩ := planned
      split at planned
      all_goals
        simp only [bind_eq_ok_iff, pure_eq_ok_iff] at planned
        obtain ⟨source, -, rfl⟩ := planned
        exact .inr (.inr trivial)
  | update update =>
      simp only [planStatement, planUpdate, bind_eq_ok_iff, pure_eq_ok_iff] at planned
      obtain ⟨table, -, filter, -, assignments, -, rfl⟩ := planned
      exact .inr (.inr trivial)
  | delete delete =>
      simp only [planStatement, planDelete, bind_eq_ok_iff, pure_eq_ok_iff] at planned
      obtain ⟨table, -, filter, -, rfl⟩ := planned
      exact .inr (.inr trivial)
  | select select =>
      simp only [planStatement, map_eq_ok_iff] at planned
      obtain ⟨query, -, rfl⟩ := planned
      exact .inr (.inr trivial)
  | _ => cases planned

/-- Only a new table needs to be looked at, and it was checked when it was declared. -/
theorem planStatement_valid {context : PlanContext} {statement : Language.Statement} {plan : Plan}
    (planned : planStatement context statement = .ok plan) : plan.Valid := by
  rcases planStatement_cases planned with ⟨_, _, _, _, -, -, -, -, checked, rfl⟩ | made | kept
  · exact ⟨checked, rfl⟩
  · obtain ⟨_, _, _, -, -, -, rfl⟩ := made
    trivial
  · cases plan with
    | createTable schema ifNotExists => cases kept
    | _ => trivial

namespace Database

variable {database after : Database} {parsed : Language.ParsedStatement} {request : Request}
variable {statement : Language.Statement} {parameters : List Value} {plan : Plan} {error : Error}

theorem initial_wellFormed {settings : Settings} (started : Database.new settings = .ok database) :
    database.WellFormed := by
  simp only [new, ofState, bind_eq_ok_iff, pure_eq_ok_iff] at started
  obtain ⟨key, -, rfl⟩ := started
  exact ⟨⟨Store.empty_wellFormed, Access.standard_wellFormed⟩, by simp⟩

/-- A plan that fails leaves the database as it was. One that does not leaves it with the
store of its effect. -/
theorem runPlan_eq (wellFormed : database.WellFormed) :
    database.runPlan plan =
      match plan.run database.state.store with
      | .ok (store, outcome) => (database.withStore store, .ok outcome)
      | .error error => (database, .error error) := by
  rw [runPlan, Plan.perform_eq_whole wellFormed.current.store]
  cases plan.run database.state.store <;> rfl

theorem settle_holds {changed : Except Error Database} {outcome : Outcome}
    {property : Database → Prop} (holds : property database)
    (preserved : ∀ after, changed = .ok after → property after) :
    property (database.settle changed outcome).1 := by
  cases changed with
  | error error => exact holds
  | ok after => exact preserved after rfl

/-- Runs a statement by its plan. -/
def runPlanned (database : Database) (statement : Language.Statement) (parameters : List Value) :
    Database × Except Error Outcome :=
  match planStatement { store := database.state.store, parameters } statement with
  | .ok plan => database.runPlan plan
  | .error error => (database, .error error)

/-- Whether it is the planning that fails or the plan, the database is left as it was. -/
theorem runPlanned_eq (wellFormed : database.WellFormed) :
    database.runPlanned statement parameters =
      match (do
        let plan ← planStatement { store := database.state.store, parameters } statement
        plan.run database.state.store) with
      | .ok (store, outcome) => (database.withStore store, .ok outcome)
      | .error error => (database, .error error) := by
  rw [runPlanned]
  cases planStatement { store := database.state.store, parameters } statement with
  | error error => rfl
  | ok plan => exact runPlan_eq wellFormed

theorem runPlanned_cases (wellFormed : database.WellFormed) :
    (∃ plan store outcome,
      planStatement { store := database.state.store, parameters } statement = .ok plan ∧
      plan.run database.state.store = .ok (store, outcome) ∧
      database.runPlanned statement parameters = (database.withStore store, .ok outcome)) ∨
    ∃ error, database.runPlanned statement parameters = (database, .error error) := by
  rw [runPlanned_eq wellFormed]
  cases ran : (do
      let plan ← planStatement { store := database.state.store, parameters } statement
      plan.run database.state.store) with
  | error error => exact .inr ⟨error, rfl⟩
  | ok result =>
      obtain ⟨plan, planned, ran⟩ := bind_eq_ok_iff.mp ran
      exact .inl ⟨plan, result.1, result.2, planned, ran, rfl⟩

theorem runPlanned_wellFormed (wellFormed : database.WellFormed) :
    (database.runPlanned statement parameters).1.WellFormed := by
  rcases runPlanned_cases wellFormed with ⟨plan, store, outcome, planned, ran, done⟩ | ⟨_, failed⟩
  · rw [done]
    have holds := Plan.run_wellFormed wellFormed.current.store (planStatement_valid planned) ran
    exact ⟨⟨holds, wellFormed.current.access⟩, wellFormed.saved⟩
  · rwa [failed]

theorem grant_eq_ok {privilege : Language.Privilege}
    (granted : database.grant privilege = .ok after) :
    ∃ access, database.state.access.grant privilege.grantee = .ok access ∧
      database.withAccess access = after := by
  rw [grant] at granted
  split at granted
  · obtain ⟨_, -, finished⟩ := bind_eq_ok_iff.mp granted
    simpa only [bind_eq_ok_iff, pure_eq_ok_iff] using finished
  · simpa only [bind_eq_ok_iff, pure_eq_ok_iff] using granted

theorem run_wellFormed (wellFormed : database.WellFormed) :
    (database.run statement parameters).1.WellFormed := by
  cases statement with
  | begin =>
      refine settle_holds wellFormed fun after begun => ?_
      simp only [begin] at begun
      split at begun
      · cases begun
      · cases begun
        refine ⟨wellFormed.current, ?_⟩
        rintro state ⟨⟩
        exact wellFormed.current
  | commit =>
      refine settle_holds wellFormed fun after committed => ?_
      simp only [commit] at committed
      split at committed
      · cases committed
        exact ⟨wellFormed.current, by simp⟩
      · cases committed
  | rollback =>
      refine settle_holds wellFormed fun after returned => ?_
      simp only [rollback] at returned
      split at returned
      · rename_i state saved
        cases returned
        exact ⟨wellFormed.saved state saved, by simp⟩
      · cases returned
  | grant privilege =>
      refine settle_holds wellFormed fun after granted => ?_
      obtain ⟨access, grants, rfl⟩ := grant_eq_ok granted
      exact ⟨⟨wellFormed.current.store,
        Access.grant_wellFormed wellFormed.current.access grants⟩, wellFormed.saved⟩
  | revoke privilege => exact wellFormed
  | _ => exact runPlanned_wellFormed wellFormed

/-! The definitions as they stand. The equations that are made for them on their own would
run the reader on the way. -/

theorem parse_eq :
    database.parse request =
      match Language.parse request.sql with
      | .ok parsed => .ok parsed
      | .error fault =>
        match Language.classify request.sql with
        | .ok type => database.authorize request.caller type >>= fun _ => .error fault
        | .error _ => .error fault := by
  delta parse
  rfl

theorem performParsed_eq :
    database.performParsed parsed request =
      match database.check parsed request with
      | .ok () => database.run parsed.statement request.parameters
      | .error error => (database, .error error) := by
  delta performParsed
  rfl

theorem perform_eq :
    database.perform request =
      match database.parse request with
      | .ok parsed => database.performParsed parsed request
      | .error error => (database, .error error) := by
  delta perform
  rfl

theorem query_eq :
    database.query request =
      match database.perform request with
      | (after, .ok outcome) => .ok (after, outcome)
      | (_, .error error) => .error error := by
  delta query
  rfl

theorem parse_eq_ok (read : database.parse request = .ok parsed) :
    Language.parse request.sql = .ok parsed := by
  rw [parse_eq] at read
  split at read
  · rename_i accepted
    exact read ▸ accepted
  · split at read
    · obtain ⟨_, -, thrown⟩ := bind_eq_ok_iff.mp read
      cases thrown
    · cases read

theorem performParsed_cases (database : Database) (parsed : Language.ParsedStatement)
    (request : Request) :
    (database.check parsed request = .ok () ∧
      database.performParsed parsed request =
        database.run parsed.statement request.parameters) ∨
    ∃ error, database.performParsed parsed request = (database, .error error) := by
  rw [performParsed_eq]
  split
  · rename_i checked
    exact .inl ⟨checked, rfl⟩
  · exact .inr ⟨_, rfl⟩

/-- Where a statement is not run, nothing changes. -/
theorem perform_cases (database : Database) (request : Request) :
    (∃ parsed, Language.parse request.sql = .ok parsed ∧
      database.check parsed request = .ok () ∧
      database.perform request = database.run parsed.statement request.parameters) ∨
    ∃ error, database.perform request = (database, .error error) := by
  rw [perform_eq]
  split
  · rename_i parsed read
    obtain ⟨checked, ran⟩ | failed := database.performParsed_cases parsed request
    · exact .inl ⟨parsed, parse_eq_ok read, checked, ran⟩
    · exact .inr failed
  · exact .inr ⟨_, rfl⟩

theorem performParsed_wellFormed {parsed : Language.ParsedStatement} {request : Request}
    (wellFormed : database.WellFormed) :
    (database.performParsed parsed request).1.WellFormed := by
  obtain ⟨-, ran⟩ | ⟨error, failed⟩ := database.performParsed_cases parsed request
  · rw [ran]
    exact run_wellFormed wellFormed
  · rwa [failed]

theorem perform_wellFormed (request : Request) (wellFormed : database.WellFormed) :
    (database.perform request).1.WellFormed := by
  obtain ⟨parsed, -, -, ran⟩ | ⟨error, failed⟩ := database.perform_cases request
  · rw [ran]
    exact run_wellFormed wellFormed
  · rwa [failed]

/-- Executing a statement does to the state what the statement does, and is logged. -/
theorem execute_eq (database : Database) (request : Request) :
    database.execute request =
      ({ (database.perform request).1 with
          log := logged database.settings.logCapacity (database.perform request).1.log
            ((database.execute request).2.entry request.sql) },
        (database.execute request).2) ∧
      (database.execute request).2.result = (database.perform request).2 := by
  delta execute
  rw [perform_eq]
  cases database.parse request <;> exact ⟨rfl, rfl⟩

theorem step_wellFormed {call : Call} (wellFormed : database.WellFormed) :
    (database.step call).WellFormed := by
  cases call with
  | query request => exact perform_wellFormed request wellFormed
  | execute request =>
      have performed := perform_wellFormed request wellFormed
      rw [step, (execute_eq database request).1]
      exact ⟨performed.current, performed.saved⟩
  | addUser salt username password role =>
      simp only [step, addUser]
      split
      · rename_i after added
        simp only [bind_eq_ok_iff, pure_eq_ok_iff] at added
        obtain ⟨access, adds, rfl⟩ := added
        exact ⟨⟨wellFormed.current.store,
          Access.addUser_wellFormed wellFormed.current.access adds⟩, wellFormed.saved⟩
      · exact wellFormed
  | removeUser username =>
      exact ⟨⟨wellFormed.current.store, Access.removeUser_wellFormed wellFormed.current.access⟩,
        wellFormed.saved⟩

theorem after_wellFormed {calls : List Call} (wellFormed : database.WellFormed) :
    (database.after calls).WellFormed := by
  induction calls generalizing database with
  | nil => exact wellFormed
  | cons call rest ih => exact ih (step_wellFormed wellFormed)

theorem Reachable.wellFormed (reached : database.Reachable) : database.WellFormed := by
  obtain ⟨settings, initial, calls, started, rfl⟩ := reached
  exact after_wellFormed (initial_wellFormed started)

/-- A database under the standard settings that nothing was done to. -/
def fresh : Database :=
  { state := .initial, undo := none, log := [], settings := .standard, key := none }

theorem new_standard : Database.new .standard = .ok fresh := rfl

/-- Statements without placeholders, run by the program itself. -/
def fromTexts (texts : List String) : Database :=
  fresh.after (texts.map fun sql => .query { sql, parameters := [], caller := .local })

theorem fromTexts_reachable {texts : List String} : (fromTexts texts).Reachable :=
  ⟨.standard, fresh, _, new_standard, rfl⟩

/-- Whatever was asked of a database, and whether it went well or failed: a relation stands
under the name of its schema, which passes its check. The rows have the columns of the schema
in order, their values pass the check, and in no unique column two of them share a key.
Indexes are over columns that there are, and no two of all tables share a name. -/
theorem relations_of_reachable (reached : database.Reachable) :
    (∀ name relation, (name, relation) ∈ database.state.store.relations.entries →
      relation.schema.name = name ∧ relation.schema.check = .ok () ∧
      (∀ row ∈ relation.rows, row.columns = relation.schema.columnNames ∧
        relation.schema.checkTuple row.values = .ok ()) ∧
      (∀ column ∈ relation.schema.uniqueColumns, relation.rows.Pairwise fun first second =>
        ∀ key, Relation.keyOf relation.schema first column = some key →
          Relation.keyOf relation.schema second column ≠ some key) ∧
      ∀ index ∈ relation.schema.indexes, ∀ column ∈ index.columns,
        column ∈ relation.schema.columnNames) ∧
    database.state.store.indexNames.Nodup := by
  have store := reached.wellFormed.current.store
  refine ⟨fun name relation member => ?_, store.indexesDistinct⟩
  have relations := store.relations _ member
  refine ⟨store.named _ member, relations.schemaValid, fun row stored => ?_,
    relations.keysDistinct, relations.indexColumns⟩
  obtain ⟨columns, values⟩ := relations.rowsHeld row stored
  refine ⟨columns, ?_⟩
  rwa [← Table.tuple_eq_values columns relations.distinct]

theorem relations_of_replaced_rows :
    let database := fromTexts ["CREATE TABLE users (name TEXT UNIQUE, age INTEGER NOT NULL)",
      "INSERT INTO users (name, age) VALUES ('ann', 1), ('bob', 2)",
      "INSERT OR REPLACE INTO users (name, age) VALUES ('cid', 3), ('ann', 4)",
      "CREATE INDEX ages ON users (age)"]
    (database.state.store.relations.entries.map fun entry =>
      (entry.1, entry.2.rows.map Row.values)) =
        [("users", [[.integer 2, .text "bob", .integer 2], [.integer 3, .text "cid", .integer 3],
          [.integer 4, .text "ann", .integer 4]])] ∧
    database.state.store.indexNames.Nodup :=
  ⟨by decide +kernel, (relations_of_reachable fromTexts_reachable).2⟩

theorem query_eq_error_iff :
    database.query request = .error error ↔ (database.perform request).2 = .error error := by
  rcases performed : database.perform request with ⟨after, result⟩
  cases result <;> simp [query_eq, performed]

theorem settle_error {changed : Except Error Database} {outcome : Outcome}
    (failed : (database.settle changed outcome).2 = .error error) :
    (database.settle changed outcome).1 = database := by
  cases changed with
  | error error => rfl
  | ok after => cases failed

theorem runPlanned_error (wellFormed : database.WellFormed)
    (failed : (database.runPlanned statement parameters).2 = .error error) :
    (database.runPlanned statement parameters).1 = database := by
  rcases runPlanned_cases wellFormed with ⟨plan, store, outcome, -, -, done⟩ | ⟨_, undone⟩
  · rw [done] at failed
    cases failed
  · rw [undone]

theorem run_error (wellFormed : database.WellFormed)
    (failed : (database.run statement parameters).2 = .error error) :
    (database.run statement parameters).1 = database := by
  cases statement with
  | begin => exact settle_error failed
  | commit => exact settle_error failed
  | rollback => exact settle_error failed
  | grant privilege => exact settle_error failed
  | revoke privilege => cases failed
  | _ => exact runPlanned_error wellFormed failed

theorem perform_error (wellFormed : database.WellFormed)
    (failed : (database.perform request).2 = .error error) :
    (database.perform request).1 = database := by
  obtain ⟨parsed, -, -, ran⟩ | ⟨_, refused⟩ := database.perform_cases request
  · rw [ran] at failed ⊢
    exact run_error wellFormed failed
  · rw [refused]

/-- A statement that fails, at whatever stage and at whichever row, leaves the database as it
was: its relations, users, roles and open transaction. Where it is executed for the log, it
fails for the same reason, and the log is all that changes. -/
theorem failed_query_changes_nothing (reached : database.Reachable)
    (failed : database.query request = .error error) :
    (database.perform request).1 = database ∧
    (database.execute request).2.result = .error error ∧
    (database.execute request).1 =
      { database with
        log := logged database.settings.logCapacity database.log
          ((database.execute request).2.entry request.sql) } := by
  have result := query_eq_error_iff.mp failed
  have unchanged := perform_error reached.wellFormed result
  obtain ⟨executed, sameResult⟩ := execute_eq database request
  refine ⟨unchanged, sameResult.trans result, ?_⟩
  conv_lhs => rw [executed, unchanged]

/-- The second row fails, and the first is not there either. -/
theorem failed_insertion_changes_nothing :
    let database := fromTexts ["CREATE TABLE users (name TEXT UNIQUE)",
      "INSERT INTO users (name) VALUES ('ann')", "BEGIN"]
    let request : Request :=
      { sql := "INSERT INTO users (name) VALUES ('bob'), (?)", parameters := [.text "ann"]
        caller := .role "operator" }
    database.query request = .error (.notUnique "users" "name") ∧
    (database.perform request).1 = database := by
  have failed : (fromTexts ["CREATE TABLE users (name TEXT UNIQUE)",
      "INSERT INTO users (name) VALUES ('ann')", "BEGIN"]).query
        { sql := "INSERT INTO users (name) VALUES ('bob'), (?)", parameters := [.text "ann"]
          caller := .role "operator" } = .error (.notUnique "users" "name") :=
    query_eq_error_iff.mpr (by decide +kernel)
  exact ⟨failed, (failed_query_changes_nothing fromTexts_reachable failed).1⟩

end Database

end Coffer
