import Coffer.Proofs.TableChange

namespace Coffer

/-! # What statements leave alone

A statement that goes well, and does not bring an earlier state back, changes no table but the
one it is about. Queries, the control of transactions and of privileges change none.
-/

open Coffer.Language (Statement)

/-- The table that a statement gives another name, and that name. -/
def Language.Statement.renaming? : Statement → Option (String × String)
  | .alter ⟨table, .renameTable target⟩ => some (table, target)
  | _ => none

/-- The names of the tables that a statement is about: an index that is dropped stands for the
table it is of, and a table that gets another name goes by both. -/
def Language.Statement.touches (store : Store) : Statement → List String
  | .create ⟨name, _, _, .table _⟩ => [name]
  | .create ⟨_, _, _, .index table _ _⟩ => [table]
  | .drop ⟨.table, name, _⟩ => [name]
  | .drop ⟨.index, name, _⟩ => (store.indexOwner? name).toList.map Table.name
  | .alter ⟨table, .renameTable target⟩ => [table, target]
  | .alter ⟨table, .addColumn _⟩ => [table]
  | .alter ⟨table, .renameColumn _ _⟩ => [table]
  | .insert insertion => [insertion.table]
  | .update change => [change.table]
  | .delete removal => [removal.table]
  | _ => []

/-- The names of the tables that a plan is about. -/
def Plan.touches (store : Store) : Plan → List String
  | .createTable schema _ => [schema.name]
  | .dropTable table _ => [table]
  | .createIndex table _ _ => [table]
  | .dropIndex index _ => (store.indexOwner? index).toList.map Table.name
  | .alterTable table (.renameTable target) => [table, target]
  | .alterTable table _ => [table]
  | .insert table _ _ _ => [table]
  | .update table _ _ _ => [table]
  | .delete table _ => [table]
  | .query _ => []

namespace Language.Statement

variable {statement : Statement} {table target : String}

theorem renaming?_eq_some_iff :
    statement.renaming? = some (table, target) ↔
      statement = .alter ⟨table, .renameTable target⟩ := by
  constructor
  · intro renames
    cases statement with
    | alter alter =>
        obtain ⟨name, action⟩ := alter
        cases action with
        | renameTable fresh =>
            cases renames
            rfl
        | _ => cases renames
    | _ => cases renames
  · rintro rfl
    rfl

/-- Of the statements that change no table only queries have a plan. -/
theorem of_planned_kept {context : PlanContext} {plan : Plan}
    (planned : planStatement context statement = .ok plan)
    (kept : statement.type ∈ [.select, .begin, .commit, .grant, .revoke]) :
    ∃ select, statement = .select select := by
  cases statement with
  | select select => exact ⟨select, rfl⟩
  | begin => cases planned
  | commit => cases planned
  | grant privilege => cases planned
  | revoke privilege => cases planned
  | _ => simp [Statement.type] at kept

end Language.Statement

/-! ## Stores -/

namespace Store

variable {store other after : Store} {relation changed : Relation} {schema : Table}
variable {name target : String} {alteration : Alteration}

theorem relation_congr
    (same : ∀ relation, store.relation name = .ok relation ↔ other.relation name = .ok relation) :
    store.relation name = other.relation name := by
  have found (relation : Relation) :
      store.relations.get? name = some relation ↔ other.relations.get? name = some relation := by
    rw [Directory.get?_eq_some_iff, Directory.get?_eq_some_iff, ← relation_eq_ok_iff,
      ← relation_eq_ok_iff]
    exact same relation
  rw [relation, relation, Option.ext found]

theorem relation_put_of_ne (apart : name ≠ changed.schema.name) :
    (store.put changed).relation name = store.relation name := by
  refine relation_congr fun relation => ?_
  simp [relation_put, apart]

theorem relation_erase_of_ne (apart : name ≠ target) :
    (Store.mk (store.relations.erase target)).relation name = store.relation name := by
  refine relation_congr fun relation => ?_
  simp [relation_erase, apart]

theorem relation_replace_of_ne (apart : name ≠ target) (unnamed : name ≠ changed.schema.name) :
    (store.replace target changed).relation name = store.relation name := by
  refine relation_congr fun relation => ?_
  simp [relation_replace, apart, unnamed]

/-- A table whose relation gives way to one under the same name. -/
theorem relation_replace_of_kept (wellFormed : store.WellFormed)
    (found : store.relation target = .ok relation)
    (kept : changed.schema.name = relation.schema.name) (apart : name ≠ target) :
    (store.replace target changed).relation name = store.relation name := by
  refine relation_replace_of_ne apart ?_
  rwa [kept, wellFormed.named _ (relation_eq_ok_iff.mp found)]

theorem relation_alter_of_ne (altered : store.alter target schema = .ok after)
    (apart : name ≠ target) (unnamed : name ≠ schema.name) :
    after.relation name = store.relation name := by
  obtain ⟨-, relation, -, rfl⟩ := alter_eq_ok_iff.mp altered
  exact relation_replace_of_ne apart unnamed

theorem relation_renamed (renamed : store.renameTable name target = .ok after) :
    ∃ relation, store.relation name = .ok relation ∧
      store.relation target = .error (.tableNotFound target) ∧
      after.relation name = .error (.tableNotFound name) ∧
      after.relation target = .ok (relation.alter { relation.schema with name := target }) := by
  obtain ⟨relation, found, free, rfl⟩ := renameTable_eq_ok_iff.mp renamed
  refine ⟨relation, found, free, ?_, relation_replace.mpr (.inl ⟨rfl, rfl⟩)⟩
  have apart : name ≠ target := by
    rintro rfl
    cases found.symm.trans free
  let renamed := relation.alter { relation.schema with name := target }
  cases held : (store.replace name renamed).relation name with
  | ok other =>
      rcases relation_replace.mp held with ⟨same, -⟩ | ⟨-, gone, -⟩
      · exact absurd same apart
      · exact absurd rfl gone
  | error reason =>
      rw [Store.relation] at held
      split at held
      · cases held
      · exact held.symm

theorem relation_alterTable (wellFormed : store.WellFormed)
    (altered : store.alterTable target alteration = .ok after)
    (apart : name ∉ (Plan.alterTable target alteration).touches store) :
    after.relation name = store.relation name := by
  cases alteration with
  | addColumn column =>
      obtain ⟨relation, changed, found, -, -, -, -, rewritten, rfl⟩ :=
        addColumn_eq_ok_iff.mp altered
      exact relation_replace_of_kept wellFormed found
        (by rw [(Relation.rewrite_spec rewritten).1]; rfl) (List.mem_singleton.not.mp apart)
  | renameTable fresh =>
      obtain ⟨relation, -, -, rfl⟩ := renameTable_eq_ok_iff.mp altered
      have apart : name ≠ target ∧ name ≠ fresh := by simpa [Plan.touches] using apart
      exact relation_replace_of_ne apart.1 apart.2
  | renameColumn source fresh =>
      obtain ⟨relation, changed, found, -, -, rewritten, rfl⟩ := renameColumn_eq_ok_iff.mp altered
      exact relation_replace_of_kept wellFormed found
        (by rw [(Relation.rewrite_spec rewritten).1]; rfl) (List.mem_singleton.not.mp apart)

end Store

/-! ## Plans -/

section

variable {store after : Store} {plan : Plan} {outcome : Outcome} {name : String}
variable {context : PlanContext} {statement : Statement}

/-- Whatever a plan is run for, it leaves the relations of all other tables as they are. -/
theorem Plan.run_untouched (wellFormed : store.WellFormed)
    (ran : plan.run store = .ok (after, outcome)) (apart : name ∉ plan.touches store) :
    after.relation name = store.relation name := by
  -- A plan that writes rows replaces one relation, under the same schema.
  have written {table : String} {relation changed : Relation}
      (found : store.relation table = .ok relation)
      (schema : relation.WellFormed → changed.schema = relation.schema) (apart : name ∉ [table]) :
      (store.replace table changed).relation name = store.relation name := by
    have formed := wellFormed.relations _ (Store.relation_eq_ok_iff.mp found)
    exact Store.relation_replace_of_kept wellFormed found (congrArg Table.name (schema formed))
      (List.mem_singleton.not.mp apart)
  cases Plan.writes_of_run ran with
  | created => exact Store.relation_put_of_ne (List.mem_singleton.not.mp apart)
  | dropped => exact Store.relation_erase_of_ne (List.mem_singleton.not.mp apart)
  | @indexed table index _ _ fresh creates =>
      obtain ⟨relation, _, found, -, -, altered⟩ := Store.createIndex_eq_ok_iff.mp creates
      have apart : name ≠ table := List.mem_singleton.not.mp apart
      refine Store.relation_alter_of_ne altered apart ?_
      rwa [Table.addIndex, wellFormed.named _ (Store.relation_eq_ok_iff.mp found)]
  | @unindexed index _ owner _ found drops =>
      have apart : name ≠ owner.name := by simpa [touches, found] using apart
      exact Store.relation_alter_of_ne drops apart apart
  | altered alters => exact Store.relation_alterTable wellFormed alters apart
  | inserted found _ inserts =>
      exact written found (fun formed => (insertAll_wellFormed formed inserts).1) apart
  | updated found updates =>
      exact written found (fun formed => (updateAll_wellFormed formed updates).1) apart
  | deleted found => exact written found (fun _ => Relation.schema_delete) apart
  | existed => rfl
  | missed => rfl
  | indexExisted => rfl
  | indexMissed => rfl
  | queried => rfl

/-- The plan of a statement is about the tables that the statement is about. -/
theorem touches_of_planStatement (wellFormed : context.store.WellFormed)
    (planned : planStatement context statement = .ok plan) :
    plan.touches context.store = statement.touches context.store := by
  have named {name : String} {table : Table} (found : context.store.table name = .ok table) :
      table.name = name := by
    obtain ⟨relation, held, rfl⟩ := map_eq_ok_iff.mp found
    exact wellFormed.named _ (Store.relation_eq_ok_iff.mp held)
  cases statement with
  | create create =>
      obtain ⟨name, ifNotExists, temporary, definition⟩ := create
      cases definition with
      | table definitions =>
          simp only [planStatement, planCreate, bind_eq_ok_iff, pure_eq_ok_iff,
            Table.declare] at planned
          obtain ⟨columns, -, table, ⟨_, -, _, -, rfl⟩, rfl⟩ := planned
          rfl
      | index table columns unique =>
          cases pure_eq_ok_iff.mp planned
          rfl
      | view select => cases planned
      | trigger body => cases planned
  | drop drop =>
      obtain ⟨kind, table, ifExists⟩ := drop
      cases kind <;> cases planned <;> rfl
  | alter alter =>
      obtain ⟨table, action⟩ := alter
      cases action with
      | addColumn definition =>
          simp only [planStatement, planAlter, bind_eq_ok_iff, guarded_eq_ok_iff,
            pure_eq_ok_iff] at planned
          obtain ⟨column, -, -, rfl⟩ := planned
          rfl
      | renameTable target =>
          cases pure_eq_ok_iff.mp planned
          rfl
      | renameColumn source target =>
          cases pure_eq_ok_iff.mp planned
          rfl
  | insert insert =>
      simp only [planStatement, planInsert, bind_eq_ok_iff] at planned
      obtain ⟨table, found, _, -, planned⟩ := planned
      split at planned
      all_goals
        simp only [bind_eq_ok_iff, pure_eq_ok_iff] at planned
        obtain ⟨source, -, rfl⟩ := planned
        exact congrArg (fun name => [name]) (named found)
  | update update =>
      simp only [planStatement, planUpdate, bind_eq_ok_iff, pure_eq_ok_iff] at planned
      obtain ⟨table, found, filter, -, assignments, -, rfl⟩ := planned
      exact congrArg (fun name => [name]) (named found)
  | delete delete =>
      simp only [planStatement, planDelete, bind_eq_ok_iff, pure_eq_ok_iff] at planned
      obtain ⟨table, found, filter, -, rfl⟩ := planned
      exact congrArg (fun name => [name]) (named found)
  | select select =>
      simp only [planStatement, map_eq_ok_iff] at planned
      obtain ⟨query, -, rfl⟩ := planned
      rfl
  | _ => cases planned

end

namespace Database

variable {database : Database} {request : Request} {parsed : Language.ParsedStatement}
variable {call : Call} {outcome : Outcome}

/-! ## Statements -/

/-- A request that goes well is one whose statement goes well. -/
theorem perform_tables (wellFormed : database.WellFormed)
    (read : Language.parse request.sql = .ok parsed)
    (ran : (database.perform request).2 = .ok outcome) :
    (∃ plan store,
      planStatement { store := database.state.store, parameters := request.parameters }
        parsed.statement = .ok plan ∧
      plan.run database.state.store = .ok (store, outcome) ∧
      (database.perform request).1 = database.withStore store) ∨
    parsed.statement.type = .rollback ∨
    (parsed.statement.type ∈ [.begin, .commit, .grant, .revoke] ∧
      (database.perform request).1.state.store = database.state.store) := by
  obtain ⟨found, same, -, performed⟩ | ⟨error, failed⟩ := database.perform_cases request
  · cases read.symm.trans same
    rw [performed] at ran ⊢
    obtain ⟨plan, store, planned, wrote, done⟩ | ⟨rolled, -⟩ | kept := run_tables wellFormed ran
    · exact .inl ⟨plan, store, planned, wrote, congrArg Prod.fst done⟩
    · exact .inr (.inl rolled)
    · exact .inr (.inr kept)
  · rw [failed] at ran
    cases ran

/-- Whoever asks for a statement that goes well, and whether it is logged or not, unless it brings
an earlier state back: a query and what controls transactions and privileges leave all tables as
they are, with their rows and counters. Any other statement leaves all tables as they are that it
is not about. A table that gets another name is gone under its own, and is found under the other
one, where nothing was before. -/
theorem untouched_tables (reached : database.Reachable) (asked : call.request? = some request)
    (read : Language.parse request.sql = .ok parsed)
    (ran : (database.perform request).2 = .ok outcome)
    (onward : parsed.statement.type ≠ .rollback) :
    (parsed.statement.type ∈ [.select, .begin, .commit, .grant, .revoke] →
      (database.step call).state.store = database.state.store) ∧
    (∀ name, name ∉ parsed.statement.touches database.state.store →
      (database.step call).state.store.relation name = database.state.store.relation name) ∧
    ∀ table target, parsed.statement.renaming? = some (table, target) →
      ∃ relation, database.state.store.relation table = .ok relation ∧
        database.state.store.relation target = .error (.tableNotFound target) ∧
        (database.step call).state.store.relation table = .error (.tableNotFound table) ∧
        (database.step call).state.store.relation target =
          .ok (relation.alter { relation.schema with name := target }) := by
  have wellFormed := reached.wellFormed
  rw [(step_request asked).1]
  obtain ⟨plan, store, planned, wrote, done⟩ | rolled | ⟨control, same⟩ :=
    perform_tables wellFormed read ran
  · have stored : (database.perform request).1.state.store = store := congrArg (·.state.store) done
    rw [stored]
    refine ⟨fun kept => ?_, fun name apart => ?_, fun table target renames => ?_⟩
    · obtain ⟨select, selects⟩ := Statement.of_planned_kept planned kept
      rw [selects] at planned
      obtain ⟨query, -, rfl⟩ := map_eq_ok_iff.mp planned
      obtain ⟨set, -, made⟩ := bind_eq_ok_iff.mp wrote
      cases made
      rfl
    · refine Plan.run_untouched wellFormed.current.store wrote ?_
      rwa [touches_of_planStatement wellFormed.current.store planned]
    · rw [Statement.renaming?_eq_some_iff.mp renames] at planned
      cases pure_eq_ok_iff.mp planned
      obtain ⟨altered, renamed, made⟩ := bind_eq_ok_iff.mp wrote
      cases made
      exact Store.relation_renamed renamed
  · exact absurd rolled onward
  · rw [same]
    refine ⟨fun _ => rfl, fun _ _ => rfl, fun table target renames => ?_⟩
    rw [Statement.renaming?_eq_some_iff.mp renames] at control
    simp [Statement.type] at control

/-- A table beside one that gets another name, and the table itself. -/
theorem untouched_beside_renaming :
    let database := fromTexts ["CREATE TABLE t (a TEXT UNIQUE)", "CREATE TABLE u (b TEXT)",
      "INSERT INTO t (a) VALUES ('x')", "INSERT INTO u (b) VALUES ('y')"]
    let request : Request :=
      { sql := "ALTER TABLE t RENAME TO v", parameters := [], caller := .local }
    let after := (database.step (.execute request)).state.store
    (database.perform request).2 = .ok (.tableAltered "t") ∧
    after.relation "u" = database.state.store.relation "u" ∧
    after.relation "t" = .error (.tableNotFound "t") ∧
    ∃ relation, database.state.store.relation "t" = .ok relation ∧
      after.relation "v" = .ok (relation.alter { relation.schema with name := "v" }) := by
  intro database request after
  have ran : (database.perform request).2 = .ok (.tableAltered "t") := by decide +kernel
  have form : (Language.parse request.sql).toOption.bind (·.statement.renaming?) =
      some ("t", "v") := by decide +kernel
  have reached : database.Reachable := fromTexts_reachable
  clear_value database request
  obtain ⟨parsed, found, renames⟩ := Option.bind_eq_some_iff.mp form
  have read := eq_ok_of_toOption found
  have statement := Statement.renaming?_eq_some_iff.mp renames
  obtain ⟨-, others, renamed⟩ := @untouched_tables database request parsed (.execute request) _
    reached rfl read ran (by rw [statement]; simp [Statement.type])
  obtain ⟨relation, was, -, gone, held⟩ := renamed "t" "v" renames
  refine ⟨ran, others "u" ?_, gone, relation, was, held⟩
  rw [statement]
  simp [Statement.touches]

end Database

end Coffer
