import Coffer.Proofs.Transaction

namespace Coffer

/-! # What statements do to a table

A statement that is carried out does one of few things to the relation of a table, and leaves
those of all other tables alone. What each of these things keeps holds of every relation in the
databases that calls lead to.
-/

open Coffer.Language (Resolution)

/-- What a plan may make of a relation. -/
inductive Relation.Becomes (relation : Relation) : Relation → Prop
  | same : relation.Becomes relation
  | altered {schema : Table} (columns : schema.columns = relation.schema.columns) :
    relation.Becomes (relation.alter schema)
  | columnAdded {column : Column} {value : Value} {changed : Relation}
    (plain : column.primaryKey = false ∧ column.unique = false)
    (valid : (relation.schema.addColumn column).check = .ok ())
    (rewritten : relation.rewrite (relation.schema.addColumn column)
      (fun row => row.set column.name value) = .ok changed) :
    relation.Becomes changed
  | columnRenamed {source target : String} {changed : Relation}
    (fresh : target ∉ relation.schema.columnNames)
    (rewritten : relation.rewrite (relation.schema.renameColumn source target)
      (fun row => row.rename source target) = .ok changed) :
    relation.Becomes changed
  | inserted {columns : Option (List String)} {resolution : Resolution}
    {rows : List (List Value)} {written : Inserted}
    (inserts : relation.insertAll columns resolution rows = .ok written) :
    relation.Becomes written.relation
  | updated {filter : Option Predicate} {assignments : List (Nat × Operand)}
    {resolution : Resolution} {changed : Relation} {count : Nat}
    (updates : relation.updateAll filter assignments resolution = .ok (changed, count)) :
    relation.Becomes changed
  | deleted {positions : List Nat} : relation.Becomes (relation.delete positions)

/-- The name of a table after a plan was run; none if the plan drops the table. -/
def Plan.nameAfter (name : String) : Plan → Option String
  | .dropTable table _ => if table = name then none else some name
  | .alterTable table (.renameTable target) => if table = name then some target else some name
  | _ => some name

/-- The name of a table after a statement; none if the statement drops the table. -/
def Language.Statement.nameAfter (name : String) : Language.Statement → Option String
  | .drop ⟨.table, table, _⟩ => if table = name then none else some name
  | .alter ⟨table, .renameTable target⟩ => if table = name then some target else some name
  | _ => some name

/-- The name of a table after a call. A call whose statement fails leaves it alone. -/
def Database.nameAfter (database : Database) (call : Call) (name : String) : Option String :=
  match call.request? with
  | none => some name
  | some request =>
    match Language.parse request.sql, (database.perform request).2 with
    | .ok parsed, .ok _ => parsed.statement.nameAfter name
    | _, _ => some name

/-- The name of a table after calls made one after another; none once one of them has dropped the
table. -/
def Database.nameAfterAll : Database → String → List Call → Option String
  | _, name, [] => some name
  | database, name, call :: rest =>
    (database.nameAfter call name).bind fun next => (database.step call).nameAfterAll next rest

/-- Whether none of the calls brings an earlier state back. -/
def Database.NeverRolledBack : Database → List Call → Prop
  | _, [] => True
  | database, call :: rest =>
    database.carriedOut call ≠ some .rollback ∧ (database.step call).NeverRolledBack rest

/-! ## Plans -/

section

variable {store after : Store} {plan : Plan} {outcome : Outcome} {relation changed : Relation}
variable {name target : String} {schema : Table} {alteration : Alteration}

/-- A plan makes a table, drops one, changes the relation of one, or leaves all of them as they
are. -/
inductive Plan.Changes (plan : Plan) (store : Store) : Store → Prop
  | created {schema : Table} {ifNotExists : Bool}
    (creates : plan = .createTable schema ifNotExists)
    (free : store.relations.contains schema.name = false) :
    plan.Changes store (store.put (.new schema))
  | dropped {table : String} {ifExists : Bool} (drops : plan = .dropTable table ifExists) :
    plan.Changes store ⟨store.relations.erase table⟩
  | replaced {name : String} {relation changed : Relation}
    (found : store.relation name = .ok relation) (becomes : relation.Becomes changed)
    (free : changed.schema.name = name ∨ store.relations.contains changed.schema.name = false)
    (named : plan.nameAfter name = some changed.schema.name)
    (others : ∀ other, other ≠ name → plan.nameAfter other = some other) :
    plan.Changes store (store.replace name changed)
  | same (kept : ∀ name relation, store.relation name = .ok relation →
      plan.nameAfter name = some name) :
    plan.Changes store store

theorem Store.contains_of_relation (found : store.relation name = .ok relation) :
    store.relations.contains name = true := by
  rw [Directory.contains, Directory.get?_eq_some_iff.mpr (relation_eq_ok_iff.mp found)]
  rfl

theorem Store.alter_changes (found : store.relation name = .ok relation)
    (columns : schema.columns = relation.schema.columns)
    (named : plan.nameAfter name = some schema.name)
    (others : ∀ other, other ≠ name → plan.nameAfter other = some other)
    (altered : store.alter name schema = .ok after) : plan.Changes store after := by
  obtain ⟨free, other, otherFound, rfl⟩ := alter_eq_ok_iff.mp altered
  cases found.symm.trans otherFound
  refine .replaced found (.altered columns) ?_ named others
  by_cases same : schema.name = name
  · exact .inl same
  · exact .inr (free same)

theorem Store.alterTable_changes (wellFormed : store.WellFormed)
    (altered : store.alterTable name alteration = .ok after) :
    (Plan.alterTable name alteration).Changes store after := by
  have named {relation : Relation} (found : store.relation name = .ok relation) :
      relation.schema.name = name := wellFormed.named _ (relation_eq_ok_iff.mp found)
  cases alteration with
  | addColumn column =>
      obtain ⟨relation, changed, found, -, plain, -, valid, rewritten, rfl⟩ :=
        addColumn_eq_ok_iff.mp altered
      have same : changed.schema.name = name := by
        rw [(Relation.rewrite_spec rewritten).1]
        exact named found
      exact .replaced found (.columnAdded plain valid rewritten) (.inl same)
        (congrArg some same.symm) fun _ _ => rfl
  | renameTable target =>
      obtain ⟨relation, found, free, rfl⟩ := renameTable_eq_ok_iff.mp altered
      exact .replaced found (.altered (by rfl)) (.inr (relation_eq_error_iff.mp free)) (if_pos rfl)
        fun other differs => if_neg (Ne.symm differs)
  | renameColumn source target =>
      obtain ⟨relation, changed, found, -, fresh, rewritten, rfl⟩ :=
        renameColumn_eq_ok_iff.mp altered
      have same : changed.schema.name = name := by
        rw [(Relation.rewrite_spec rewritten).1]
        exact named found
      exact .replaced found (.columnRenamed fresh rewritten) (.inl same) (congrArg some same.symm)
        fun _ _ => rfl

/-- Whatever a plan is run for, this is what it does to the store. -/
theorem Plan.run_changes (wellFormed : store.WellFormed)
    (ran : plan.run store = .ok (after, outcome)) : plan.Changes store after := by
  have formed {name : String} {relation : Relation} (found : store.relation name = .ok relation) :
      relation.WellFormed ∧ relation.schema.name = name :=
    ⟨wellFormed.relations _ (Store.relation_eq_ok_iff.mp found),
      wellFormed.named _ (Store.relation_eq_ok_iff.mp found)⟩
  -- The relation that a table has after a plan that writes rows.
  have written {name : String} {relation changed : Relation}
      (found : store.relation name = .ok relation) (becomes : relation.Becomes changed)
      (schema : changed.schema = relation.schema)
      (kept : ∀ other, plan.nameAfter other = some other) :
      plan.Changes store (store.replace name changed) := by
    have named : changed.schema.name = name := by
      rw [schema]
      exact (formed found).2
    exact .replaced found becomes (.inl named) (named ▸ kept name) fun other _ => kept other
  cases Plan.writes_of_run ran with
  | created free => exact .created rfl free
  | dropped => exact .dropped rfl
  | missed absent =>
      refine .same fun name relation found => if_neg ?_
      rintro rfl
      have present := Store.contains_of_relation found
      rw [← Store.isSome_table?, absent] at present
      cases present
  | indexed fresh creates =>
      obtain ⟨relation, _, found, -, -, altered⟩ := Store.createIndex_eq_ok_iff.mp creates
      refine Store.alter_changes found (by rfl) ?_ (fun _ _ => rfl) altered
      exact congrArg some (formed found).2.symm
  | unindexed found drops =>
      obtain ⟨relation, located, rfl⟩ := Store.relation_of_indexOwner? wellFormed found
      exact Store.alter_changes located (by rfl) (by rfl) (fun _ _ => rfl) drops
  | altered alters => exact Store.alterTable_changes wellFormed alters
  | inserted found _ inserts =>
      exact written found (.inserted inserts) (insertAll_wellFormed (formed found).1 inserts).1
        fun _ => rfl
  | updated found updates =>
      exact written found (.updated updates) (updateAll_wellFormed (formed found).1 updates).1
        fun _ => rfl
  | deleted found => exact written found .deleted Relation.schema_delete fun _ => rfl
  | existed => exact .same fun _ _ _ => rfl
  | indexExisted => exact .same fun _ _ _ => rfl
  | indexMissed => exact .same fun _ _ _ => rfl
  | queried => exact .same fun _ _ _ => rfl

theorem Store.relation_put :
    (store.put changed).relation name = .ok relation ↔
      (name = changed.schema.name ∧ relation = changed) ∨
        (store.relation name = .ok relation ∧ name ≠ changed.schema.name) := by
  rw [relation_eq_ok_iff, put, Directory.mem_insert_iff, relation_eq_ok_iff, Prod.mk.injEq]

theorem Store.relation_erase :
    (Store.mk (store.relations.erase target)).relation name = .ok relation ↔
      store.relation name = .ok relation ∧ name ≠ target := by
  rw [relation_eq_ok_iff, Directory.mem_erase_iff, relation_eq_ok_iff]

theorem Store.relation_replace :
    (store.replace target changed).relation name = .ok relation ↔
      (name = changed.schema.name ∧ relation = changed) ∨
        (store.relation name = .ok relation ∧ name ≠ target ∧ name ≠ changed.schema.name) := by
  rw [replace, relation_put, relation_erase, and_assoc]

/-- A table that is not dropped is found under its name, with what became of its relation. -/
theorem Plan.Changes.relation_after (changes : plan.Changes store after)
    (found : store.relation name = .ok relation) (kept : plan.nameAfter name = some target) :
    ∃ changed, after.relation target = .ok changed ∧ relation.Becomes changed := by
  have taken := Store.contains_of_relation found
  cases changes with
  | created creates free =>
      subst creates
      cases kept
      refine ⟨relation, Store.relation_put.mpr (.inr ⟨found, ?_⟩), .same⟩
      rintro rfl
      cases free.symm.trans taken
  | @dropped table ifExists drops =>
      subst drops
      by_cases named : table = name
      · cases (if_pos named).symm.trans kept
      · cases (if_neg named).symm.trans kept
        exact ⟨relation, Store.relation_erase.mpr ⟨found, Ne.symm named⟩, .same⟩
  | @replaced own former changed formerFound becomes free named others =>
      by_cases same : name = own
      · subst same
        cases formerFound.symm.trans found
        cases named.symm.trans kept
        exact ⟨changed, Store.relation_replace.mpr (.inl ⟨rfl, rfl⟩), becomes⟩
      · cases (others name same).symm.trans kept
        refine ⟨relation, Store.relation_replace.mpr (.inr ⟨found, same, ?_⟩), .same⟩
        rintro rfl
        rcases free with rfl | free
        · exact same rfl
        · cases free.symm.trans taken
  | same every =>
      cases (every name relation found).symm.trans kept
      exact ⟨relation, found, .same⟩

/-- Every relation is a new one, or what became of another. -/
theorem Plan.Changes.relation_before (changes : plan.Changes store after) (valid : plan.Valid)
    (found : after.relation name = .ok changed) :
    (∃ schema, schema.check = .ok () ∧ changed = .new schema) ∨
      ∃ former relation, store.relation former = .ok relation ∧ relation.Becomes changed := by
  cases changes with
  | created creates free =>
      subst creates
      rcases Store.relation_put.mp found with ⟨-, rfl⟩ | ⟨formerly, -⟩
      · exact .inl ⟨_, valid.1, rfl⟩
      · exact .inr ⟨name, changed, formerly, .same⟩
  | dropped drops =>
      exact .inr ⟨name, changed, (Store.relation_erase.mp found).1, .same⟩
  | replaced formerFound becomes free named others =>
      rcases Store.relation_replace.mp found with ⟨-, rfl⟩ | ⟨formerly, -⟩
      · exact .inr ⟨_, _, formerFound, becomes⟩
      · exact .inr ⟨name, changed, formerly, .same⟩
  | same every => exact .inr ⟨name, changed, found, .same⟩

/-- The plan of a statement names tables as the statement does. -/
theorem nameAfter_of_planStatement {context : PlanContext} {statement : Language.Statement}
    (planned : planStatement context statement = .ok plan) :
    plan.nameAfter name = statement.nameAfter name := by
  cases statement with
  | create create =>
      simp only [planStatement, planCreate] at planned
      split at planned
      · simp only [bind_eq_ok_iff, pure_eq_ok_iff] at planned
        obtain ⟨columns, -, table, -, rfl⟩ := planned
        rfl
      · cases pure_eq_ok_iff.mp planned
        rfl
      · cases planned
  | drop drop =>
      obtain ⟨kind, table, ifExists⟩ := drop
      cases kind <;> cases planned <;> rfl
  | alter alter =>
      obtain ⟨table, action⟩ := alter
      cases action with
      | addColumn definition =>
          simp only [planStatement, planAlter, bind_eq_ok_iff, guarded_eq_ok_iff,
            pure_eq_ok_iff] at planned
          obtain ⟨column, -, -, rfl⟩ := planned
          rfl
      | renameTable target =>
          cases pure_eq_ok_iff.mp planned
          rfl
      | renameColumn source target =>
          cases pure_eq_ok_iff.mp planned
          rfl
  | insert insert =>
      simp only [planStatement, planInsert, bind_eq_ok_iff] at planned
      obtain ⟨table, -, _, -, planned⟩ := planned
      split at planned
      all_goals
        simp only [bind_eq_ok_iff, pure_eq_ok_iff] at planned
        obtain ⟨source, -, rfl⟩ := planned
        rfl
  | update update =>
      simp only [planStatement, planUpdate, bind_eq_ok_iff, pure_eq_ok_iff] at planned
      obtain ⟨table, -, filter, -, assignments, -, rfl⟩ := planned
      rfl
  | delete delete =>
      simp only [planStatement, planDelete, bind_eq_ok_iff, pure_eq_ok_iff] at planned
      obtain ⟨table, -, filter, -, rfl⟩ := planned
      rfl
  | select select =>
      simp only [planStatement, map_eq_ok_iff] at planned
      obtain ⟨query, -, rfl⟩ := planned
      rfl
  | _ => cases planned

end

/-- What controls transactions and privileges gives no table another name. -/
theorem Language.Statement.nameAfter_of_control {statement : Language.Statement} {name : String}
    (control : statement.type ∈ [.begin, .commit, .grant, .revoke]) :
    statement.nameAfter name = some name := by
  cases statement with
  | begin => rfl
  | commit => rfl
  | grant privilege => rfl
  | revoke privilege => rfl
  | _ => simp [type] at control

namespace Database

variable {database : Database} {request : Request} {call : Call} {calls : List Call}
variable {relation : Relation} {name target : String}

/-! ## Calls -/

/-- A statement that goes well has run its plan, has brought an earlier state back, or has left
the tables as they are, as those do that control transactions and privileges. -/
theorem run_tables {statement : Language.Statement} {parameters : List Value} {outcome : Outcome}
    (wellFormed : database.WellFormed)
    (ran : (database.run statement parameters).2 = .ok outcome) :
    (∃ plan store,
      planStatement { store := database.state.store, parameters } statement = .ok plan ∧
      plan.run database.state.store = .ok (store, outcome) ∧
      database.run statement parameters = (database.withStore store, .ok outcome)) ∨
    (statement.type = .rollback ∧ ∃ saved, database.undo = some saved ∧
      (database.run statement parameters).1.state = saved) ∨
    (statement.type ∈ [.begin, .commit, .grant, .revoke] ∧
      (database.run statement parameters).1.state.store = database.state.store) := by
  cases statement with
  | begin => exact .inr (.inr ⟨by simp [Language.Statement.type], by rw [(run_begin ran).2]⟩)
  | commit => exact .inr (.inr ⟨by simp [Language.Statement.type], by rw [run_commit ran]⟩)
  | rollback =>
      obtain ⟨saved, held, rolled⟩ := run_rollback ran
      exact .inr (.inl ⟨rfl, saved, held, by rw [rolled]⟩)
  | grant privilege =>
      refine .inr (.inr ⟨by simp [Language.Statement.type], ?_⟩)
      refine @settle_holds database _ _
        (fun after => after.state.store = database.state.store) rfl fun after granted => ?_
      obtain ⟨access, -, rfl⟩ := grant_eq_ok granted
      rfl
  | revoke privilege => exact .inr (.inr ⟨by simp [Language.Statement.type], rfl⟩)
  | _ =>
      change (database.runPlanned _ _).2 = _ at ran
      obtain ⟨plan, store, result, planned, wrote, done⟩ | ⟨error, failed⟩ :=
        @runPlanned_cases _ _ parameters wellFormed
      · rw [done] at ran
        cases ran
        exact .inl ⟨plan, store, planned, wrote, done⟩
      · rw [failed] at ran
        cases ran

/-- What a call does to the store: it runs a plan, it brings an earlier state back, or it leaves
the store as it is. -/
theorem step_cases (wellFormed : database.WellFormed) (call : Call) :
    (∃ request parsed plan store outcome, call.request? = some request ∧
      Language.parse request.sql = .ok parsed ∧ database.check parsed request = .ok () ∧
      planStatement { store := database.state.store, parameters := request.parameters }
        parsed.statement = .ok plan ∧
      plan.run database.state.store = .ok (store, outcome) ∧
      database.perform request = (database.withStore store, .ok outcome)) ∨
    (database.carriedOut call = some .rollback ∧
      ∃ saved, database.undo = some saved ∧ (database.step call).state = saved) ∨
    ((database.step call).state.store = database.state.store ∧
      ∀ name, database.nameAfter call name = some name) := by
  cases asked : call.request? with
  | none =>
      refine .inr (.inr ⟨?_, fun name => by rw [nameAfter, asked]⟩)
      cases call with
      | query request => cases asked
      | execute request => cases asked
      | addUser salt username password role =>
          simp only [step, addUser]
          split
          · rename_i added
            simp only [bind_eq_ok_iff, pure_eq_ok_iff] at added
            obtain ⟨access, -, rfl⟩ := added
            rfl
          · rfl
      | removeUser username => rfl
  | some request =>
      have stepped : (database.step call).state = (database.perform request).1.state :=
        (step_request asked).1
      cases performed : (database.perform request).2 with
      | error error =>
          refine .inr (.inr ⟨?_, fun name => ?_⟩)
          · rw [stepped, perform_error wellFormed performed]
          · rw [nameAfter, asked]
            simp only [performed]
            split <;> first | rfl | contradiction
      | ok outcome =>
          obtain ⟨parsed, read, checked, ran⟩ | ⟨error, failed⟩ := database.perform_cases request
          · rw [ran] at stepped performed
            obtain ⟨plan, store, planned, wrote, done⟩ | ⟨rolls, saved, held, rolled⟩ |
              ⟨control, kept⟩ := run_tables wellFormed performed
            · exact .inl ⟨request, parsed, plan, store, outcome, rfl, read, checked, planned, wrote,
                ran.trans done⟩
            · refine .inr (.inl ⟨?_, saved, held, stepped.trans rolled⟩)
              simp only [carriedOut, asked, read, ran, performed, rolls]
            · refine .inr (.inr ⟨(congrArg (·.store) stepped).trans kept, fun name => ?_⟩)
              simp only [nameAfter, asked, read, ran, performed]
              exact Language.Statement.nameAfter_of_control control
          · rw [failed] at performed
            cases performed

end Database

/-- What holds of every new relation, and of all that a relation it holds of may become. -/
structure Relation.Invariant (holds : Relation → Prop) : Prop where
  created : ∀ schema, schema.check = .ok () → holds (.new schema)
  becomes : ∀ relation changed, relation.WellFormed → holds relation →
    relation.Becomes changed → holds changed

namespace Database

variable {database : Database} {call : Call} {calls : List Call} {holds : Relation → Prop}
variable {relation : Relation} {name target : String}

/-- Something holds of all relations, now and after a rollback. -/
structure Throughout (database : Database) (holds : Relation → Prop) : Prop where
  current : ∀ name relation, database.state.store.relation name = .ok relation → holds relation
  saved : ∀ state, database.undo = some state →
    ∀ name relation, state.store.relation name = .ok relation → holds relation

theorem step_throughout (invariant : Relation.Invariant holds) (wellFormed : database.WellFormed)
    (throughout : database.Throughout holds) : (database.step call).Throughout holds := by
  refine ⟨fun name relation found => ?_, fun state undo => ?_⟩
  · rcases database.step_cases wellFormed call with
      ⟨request, parsed, plan, store, outcome, asked, -, -, planned, ran, performed⟩ |
      ⟨-, saved, held, back⟩ | ⟨same, -⟩
    · have stored : (database.step call).state.store = store := by
        rw [(step_request asked).1, performed]
        rfl
      rw [stored] at found
      have changes := Plan.run_changes wellFormed.current.store ran
      obtain ⟨schema, valid, rfl⟩ | ⟨former, before, formerly, becomes⟩ :=
        changes.relation_before (planStatement_valid planned) found
      · exact invariant.created schema valid
      · exact invariant.becomes before relation
          (wellFormed.current.store.relations _ (Store.relation_eq_ok_iff.mp formerly))
          (throughout.current former before formerly) becomes
    · exact throughout.saved saved held name relation (back ▸ found)
    · exact throughout.current name relation (same ▸ found)
  · rw [step_undo] at undo
    split at undo
    · cases undo
      exact throughout.current
    · cases undo
    · cases undo
    · exact throughout.saved state undo

theorem after_throughout (invariant : Relation.Invariant holds) (wellFormed : database.WellFormed)
    (throughout : database.Throughout holds) : (database.after calls).Throughout holds := by
  induction calls generalizing database with
  | nil => exact throughout
  | cons call rest ih =>
      exact ih (step_wellFormed wellFormed) (step_throughout invariant wellFormed throughout)

/-- What every change of a relation keeps holds of all tables that there ever are. -/
theorem Reachable.relation_holds (reached : database.Reachable)
    (invariant : Relation.Invariant holds)
    (found : database.state.store.relation name = .ok relation) : holds relation := by
  obtain ⟨settings, initial, calls, started, rfl⟩ := reached
  refine (after_throughout invariant (initial_wellFormed started) ?_).current name relation found
  simp only [new, ofState, bind_eq_ok_iff, pure_eq_ok_iff] at started
  obtain ⟨key, -, rfl⟩ := started
  constructor
  · intro name relation held
    cases held
  · intro state saved
    cases saved

/-- Without a rollback a table that is not dropped is found again after a call, with what became
of its relation. -/
theorem relation_step (wellFormed : database.WellFormed)
    (found : database.state.store.relation name = .ok relation)
    (onward : database.carriedOut call ≠ some .rollback)
    (kept : database.nameAfter call name = some target) :
    ∃ changed, (database.step call).state.store.relation target = .ok changed ∧
      relation.Becomes changed := by
  rcases database.step_cases wellFormed call with
    ⟨request, parsed, plan, store, outcome, asked, read, -, planned, ran, performed⟩ |
    ⟨rolled, -⟩ | ⟨same, named⟩
  · have stored : (database.step call).state.store = store := by
      rw [(step_request asked).1, performed]
      rfl
    have named : database.nameAfter call name = plan.nameAfter name := by
      rw [nameAfter_of_planStatement planned]
      simp only [nameAfter, asked, read, performed]
    rw [stored]
    exact (Plan.run_changes wellFormed.current.store ran).relation_after found (named ▸ kept)
  · exact absurd rolled onward
  · cases (named name).symm.trans kept
    exact ⟨relation, same ▸ found, .same⟩

end Database

end Coffer
