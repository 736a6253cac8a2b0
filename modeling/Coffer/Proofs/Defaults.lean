import Coffer.Proofs.FoundStatement
import Coffer.Proofs.Reachable
import Coffer.Proofs.RoundedInteger

namespace Coffer

/-! # Defaults of columns

No literal is an infinite real, no placeholder stands for one, and no value becomes one in
its column. So no column has one for its default, whatever statements were run.
-/

namespace Value

variable {value : Value} {type : ColumnType}

/-- Whether a value is no infinite or undefined real. -/
def Finite (value : Value) : Prop :=
  ∀ x, value = .real x → x.isFinite = true

theorem realOrText_finite {content : String} : (realOrText content).Finite := by
  intro x real
  simp only [realOrText] at real
  split at real
  · rename_i found spelled
    cases real
    exact (Option.filter_eq_some_iff.mp spelled).2
  · cases real

theorem coerce_finite (finite : value.Finite) : (value.coerce type).Finite := by
  cases value with
  | null => cases type <;> exact finite
  | integer number =>
      cases type with
      | real =>
          rintro _ ⟨⟩
          exact Binary64.ofInt_finite
      | text => exact nofun
      | integer => exact finite
      | blob => exact finite
  | real x =>
      cases type with
      | integer =>
          rw [coerce]
          split
          · exact nofun
          · exact finite
      | text => exact nofun
      | real => exact finite
      | blob => exact finite
  | text content =>
      cases type with
      | integer =>
          rw [coerce]
          split
          · exact nofun
          · exact realOrText_finite
      | real => exact realOrText_finite
      | text => exact finite
      | blob => exact finite

end Value

/-- A column whose default, if it has one, is no infinite real. -/
def Column.FiniteDefault (column : Column) : Prop :=
  ∀ value ∈ column.default, value.Finite

def Table.FiniteDefaults (table : Table) : Prop :=
  ∀ column ∈ table.columns, column.FiniteDefault

def Store.FiniteDefaults (store : Store) : Prop :=
  ∀ entry ∈ store.relations.entries, entry.2.schema.FiniteDefaults

/-- The columns that a plan makes have such defaults. -/
def Plan.FiniteDefaults : Plan → Prop
  | .createTable schema _ => schema.FiniteDefaults
  | .alterTable _ (.addColumn column) => column.FiniteDefault
  | _ => True

/-! ## Planning -/

section Planning

variable {context : PlanContext} {allowed : Language.Token → Prop}
variable {statement : Language.Statement} {plan : Plan}

theorem PlanContext.constant_finite {expression : Language.Expression} {value : Value}
    (found : expression.Found allowed) (parameters : ∀ value ∈ context.parameters, value.Finite)
    (constant : context.constant expression = .ok value) : value.Finite := by
  simp only [PlanContext.constant, bind_eq_ok_iff, pure_eq_ok_iff] at constant
  obtain ⟨operand, read, rfl⟩ := constant
  cases expression with
  | literal literal =>
      cases read
      cases found.readable with
      | literal finite =>
          intro x real
          cases literal <;> cases real
          exact finite x rfl
  | parameter index =>
      simp only [Operand.ofExpression] at read
      split at read
      · rename_i value given
        cases read
        exact parameters value (List.mem_of_getElem? given)
      · cases read
  | _ => cases read

variable (parameters : ∀ value ∈ context.parameters, value.Finite)
include parameters

theorem planColumn_finite {definition : Language.ColumnDefinition} {column : Column}
    (found : definition.Found allowed) (planned : planColumn context definition = .ok column) :
    column.FiniteDefault := by
  simp only [planColumn, bind_eq_ok_iff, pure_eq_ok_iff] at planned
  obtain ⟨default, constants, rfl⟩ := planned
  intro value given
  obtain ⟨plain, rfl, rfl⟩ := Option.map_eq_some_iff.mp given
  refine Value.coerce_finite ?_
  cases written : definition.default with
  | none =>
      rw [written] at constants
      cases constants
  | some expression =>
      rw [written] at constants
      obtain ⟨value, constant, same⟩ := map_eq_ok_iff.mp constants
      cases same
      exact PlanContext.constant_finite (found expression written) parameters constant

theorem planColumns_finite {definitions : List Language.ColumnDefinition} {columns : List Column}
    (found : ∀ definition ∈ definitions, definition.Found allowed)
    (planned : definitions.mapM (planColumn context) = .ok columns) :
    ∀ column ∈ columns, column.FiniteDefault := by
  induction definitions generalizing columns with
  | nil =>
      cases planned
      exact List.forall_mem_nil _
  | cons definition others ih =>
      obtain ⟨first, rest⟩ := List.forall_mem_cons.mp found
      simp only [List.mapM_cons, bind_eq_ok_iff, pure_eq_ok_iff] at planned
      obtain ⟨column, leading, following, later, rfl⟩ := planned
      exact List.forall_mem_cons.mpr ⟨planColumn_finite parameters first leading, ih rest later⟩

theorem planStatement_finite (found : ∀ column ∈ statement.columns, column.Found allowed)
    (planned : planStatement context statement = .ok plan) : plan.FiniteDefaults := by
  rcases planStatement_cases planned with created | altered | kept
  · obtain ⟨⟨name, ifNotExists, temporary, _⟩, definitions, columns, keyed, rfl, defines, made,
      withKey, -, rfl⟩ := created
    cases defines
    have finite := planColumns_finite parameters found made
    rw [Table.withKey] at withKey
    split at withKey
    · cases withKey
      exact finite
    · split at withKey
      · cases withKey
      · cases withKey
        exact List.forall_mem_cons.mpr ⟨nofun, finite⟩
  · obtain ⟨⟨table, _⟩, definition, column, rfl, adds, made, rfl⟩ := altered
    cases adds
    exact planColumn_finite parameters (found definition (List.mem_singleton.mpr rfl)) made
  · cases plan with
    | createTable schema ifNotExists => cases kept
    | alterTable table alteration =>
        cases alteration with
        | addColumn column => cases kept
        | _ => trivial
    | _ => trivial

end Planning
/-! ## Running -/

namespace Store

variable {store after : Store} {relation : Relation} {table : Table} {name : String}

theorem FiniteDefaults.schema (finite : store.FiniteDefaults)
    (found : store.relation name = .ok relation) : relation.schema.FiniteDefaults :=
  finite _ (relation_eq_ok_iff.mp found)

theorem FiniteDefaults.put (finite : store.FiniteDefaults)
    (columns : relation.schema.FiniteDefaults) : (store.put relation).FiniteDefaults := by
  intro entry member
  rcases Directory.mem_insert_iff.mp member with rfl | ⟨former, -⟩
  · exact columns
  · exact finite entry former

theorem FiniteDefaults.erase (finite : store.FiniteDefaults) :
    (Store.mk (store.relations.erase name)).FiniteDefaults :=
  fun entry member => finite entry (Directory.mem_erase_iff.mp member).1

theorem FiniteDefaults.replace (finite : store.FiniteDefaults)
    (columns : relation.schema.FiniteDefaults) : (store.replace name relation).FiniteDefaults :=
  finite.erase.put columns

/-- A table may be altered where its columns keep their defaults. -/
theorem FiniteDefaults.alter (finite : store.FiniteDefaults)
    (found : store.relation name = .ok relation)
    (same : table.columns = relation.schema.columns)
    (altered : store.alter name table = .ok after) : after.FiniteDefaults := by
  obtain ⟨-, other, otherFound, rfl⟩ := alter_eq_ok_iff.mp altered
  refine finite.replace fun column member => ?_
  exact finite.schema found column (same ▸ member)

theorem FiniteDefaults.alterTable {alteration : Alteration} (finite : store.FiniteDefaults)
    (added : ∀ column, alteration = .addColumn column → column.FiniteDefault)
    (altered : store.alterTable name alteration = .ok after) : after.FiniteDefaults := by
  cases alteration with
  | addColumn column =>
      obtain ⟨relation, changed, found, -, -, -, -, rewritten, rfl⟩ :=
        addColumn_eq_ok_iff.mp altered
      refine finite.replace ?_
      rw [(Relation.rewrite_spec rewritten).1]
      exact List.forall_mem_append.mpr
        ⟨finite.schema found, List.forall_mem_singleton.mpr (added column rfl)⟩
  | renameTable target =>
      obtain ⟨relation, found, -, rfl⟩ := renameTable_eq_ok_iff.mp altered
      have columns : relation.schema.FiniteDefaults := finite.schema found
      exact finite.replace columns
  | renameColumn source target =>
      obtain ⟨relation, changed, found, -, -, rewritten, rfl⟩ := renameColumn_eq_ok_iff.mp altered
      refine finite.replace ?_
      rw [(Relation.rewrite_spec rewritten).1]
      intro column member
      obtain ⟨former, listed, rfl⟩ := List.mem_map.mp member
      exact finite.schema found former listed

end Store

theorem Plan.run_finite {plan : Plan} {store after : Store} {outcome : Outcome}
    (wellFormed : store.WellFormed) (finite : store.FiniteDefaults) (columns : plan.FiniteDefaults)
    (ran : plan.run store = .ok (after, outcome)) : after.FiniteDefaults := by
  have formed {name : String} {relation : Relation} (found : store.relation name = .ok relation) :
      relation.WellFormed := wellFormed.relations _ (Store.relation_eq_ok_iff.mp found)
  cases Plan.writes_of_run ran with
  | created => exact finite.put columns
  | dropped => exact finite.erase
  | indexed fresh creates =>
      obtain ⟨relation, _, found, -, -, altered⟩ := Store.createIndex_eq_ok_iff.mp creates
      exact finite.alter found (by rfl) altered
  | unindexed found drops =>
      obtain ⟨relation, located, rfl⟩ := Store.relation_of_indexOwner? wellFormed found
      exact finite.alter located (by rfl) drops
  | altered alters =>
      refine finite.alterTable ?_ alters
      rintro column rfl
      exact columns
  | inserted found _ inserts =>
      exact finite.replace ((insertAll_wellFormed (formed found) inserts).1 ▸ finite.schema found)
  | updated found updates =>
      exact finite.replace ((updateAll_wellFormed (formed found) updates).1 ▸ finite.schema found)
  | deleted found =>
      refine finite.replace ?_
      rw [Relation.schema_delete]
      exact finite.schema found
  | existed => exact finite
  | missed => exact finite
  | indexExisted => exact finite
  | indexMissed => exact finite
  | queried => exact finite

namespace Database

variable {database : Database} {statement : Language.Statement} {parameters : List Value}
variable {allowed : Language.Token → Prop}

/-- Columns with finite defaults, now and after a rollback. -/
structure FiniteDefaults (database : Database) : Prop where
  current : database.state.store.FiniteDefaults
  saved : ∀ state, database.undo = some state → state.store.FiniteDefaults

theorem strayReal?_eq_none (none : strayReal? parameters = none) :
    ∀ value ∈ parameters, value.Finite := by
  rintro value member x rfl
  have passed := List.findSome?_eq_none_iff.mp none (.real x) member
  simpa using passed

theorem runPlanned_finite (wellFormed : database.WellFormed) (finite : database.FiniteDefaults)
    (found : ∀ column ∈ statement.columns, column.Found allowed)
    (given : ∀ value ∈ parameters, value.Finite) :
    (database.runPlanned statement parameters).1.FiniteDefaults := by
  rcases runPlanned_cases wellFormed with ⟨plan, store, outcome, planned, ran, done⟩ | ⟨_, failed⟩
  · rw [done]
    refine ⟨?_, finite.saved⟩
    exact Plan.run_finite wellFormed.current.store finite.current
      (planStatement_finite given found planned) ran
  · rwa [failed]

theorem run_finite (wellFormed : database.WellFormed) (finite : database.FiniteDefaults)
    (found : ∀ column ∈ statement.columns, column.Found allowed)
    (given : ∀ value ∈ parameters, value.Finite) :
    (database.run statement parameters).1.FiniteDefaults := by
  cases statement with
  | begin =>
      refine settle_holds finite fun after begun => ?_
      simp only [begin] at begun
      split at begun
      · cases begun
      · cases begun
        refine ⟨finite.current, ?_⟩
        rintro state ⟨⟩
        exact finite.current
  | commit =>
      refine settle_holds finite fun after committed => ?_
      simp only [commit] at committed
      split at committed
      · cases committed
        exact ⟨finite.current, by simp⟩
      · cases committed
  | rollback =>
      refine settle_holds finite fun after returned => ?_
      simp only [rollback] at returned
      split at returned
      · rename_i state saved
        cases returned
        exact ⟨finite.saved state saved, by simp⟩
      · cases returned
  | grant privilege =>
      refine settle_holds finite fun after granted => ?_
      obtain ⟨access, -, rfl⟩ := grant_eq_ok granted
      exact ⟨finite.current, finite.saved⟩
  | revoke privilege => exact finite
  | _ => exact runPlanned_finite wellFormed finite found given

theorem perform_finite {request : Request} (wellFormed : database.WellFormed)
    (finite : database.FiniteDefaults) : (database.perform request).1.FiniteDefaults := by
  obtain ⟨parsed, read, checked, ran⟩ | ⟨error, failed⟩ := database.perform_cases request
  · rw [ran]
    simp only [check, bind_eq_ok_iff, guarded_eq_ok_iff] at checked
    obtain ⟨_, -, _, -, -, given⟩ := checked
    split at given
    · cases given
    · rename_i none
      simp only [Language.parse, bind_eq_ok_iff, pure_eq_ok_iff] at read
      obtain ⟨_, accepted, rfl⟩ := read
      exact run_finite wellFormed finite (Language.columns_of_parse accepted fun _ _ => trivial)
        (strayReal?_eq_none none)
  · rwa [failed]

theorem step_finite {call : Call} (wellFormed : database.WellFormed)
    (finite : database.FiniteDefaults) : (database.step call).FiniteDefaults := by
  cases call with
  | query request => exact perform_finite wellFormed finite
  | execute request =>
      have performed := @perform_finite database request wellFormed finite
      rw [step, (execute_eq database request).1]
      exact ⟨performed.current, performed.saved⟩
  | addUser salt username password role =>
      simp only [step, addUser]
      split
      · rename_i after added
        simp only [bind_eq_ok_iff, pure_eq_ok_iff] at added
        obtain ⟨access, -, rfl⟩ := added
        exact ⟨finite.current, finite.saved⟩
      · exact finite
  | removeUser username => exact ⟨finite.current, finite.saved⟩

theorem after_finite {calls : List Call} (wellFormed : database.WellFormed)
    (finite : database.FiniteDefaults) : (database.after calls).FiniteDefaults := by
  induction calls generalizing database with
  | nil => exact finite
  | cons call rest ih => exact ih (step_wellFormed wellFormed) (step_finite wellFormed finite)

/-- Whatever was asked of a database, no column of its tables has an infinite real for its
default. -/
theorem Reachable.finiteDefaults (reached : database.Reachable) : database.FiniteDefaults := by
  obtain ⟨settings, initial, calls, started, rfl⟩ := reached
  refine after_finite (initial_wellFormed started) ?_
  simp only [new, ofState, bind_eq_ok_iff, pure_eq_ok_iff] at started
  obtain ⟨key, -, rfl⟩ := started
  exact ⟨List.forall_mem_nil _, by simp⟩

end Database

end Coffer
