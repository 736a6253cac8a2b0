import Coffer.Proofs.FreshNumber

namespace Coffer

/-! # The form of stored values

Inserted and updated values take the form that their column prefers, and so do defaults and the
numbers of rows. So whatever is stored is what some value became in its column. That form is a
fixed point, with one exception: a text that spells an integer as a real, with a fraction or an
exponent, becomes that real in an integer column, and the real would become the integer.
-/

open Coffer.Language (Resolution)

namespace Value

/-- Whether a text spells a real that an integer column would keep as an integer, but no integer. -/
def SpellsWholeReal (content : String) : Prop :=
  integerOfText? content = none ∧
    ∃ x number, realOfText? content = some x ∧ integerOfReal? x = some number

/-- Whether a value is what a column of a type makes of some value. -/
def InForm (type : ColumnType) (value : Value) : Prop :=
  ∃ given : Value, value = given.coerce type

variable {value : Value} {type : ColumnType} {content : String} {x : Binary64} {number : Int64}

theorem coerce_realOrText : (realOrText content).coerce .real = realOrText content := by
  cases spelled : realOfText? content with
  | none => simp only [realOrText, spelled, coerce]
  | some x => simp only [realOrText, spelled, coerce]

theorem coerce_integer_realOrText (noInteger : integerOfText? content = none) :
    (realOrText content).coerce .integer = realOrText content ↔ ¬ SpellsWholeReal content := by
  simp only [SpellsWholeReal, noInteger, true_and]
  cases spelled : realOfText? content with
  | none => simp [realOrText, spelled, coerce, noInteger]
  | some x =>
      cases whole : integerOfReal? x with
      | none => simp [realOrText, spelled, coerce, whole]
      | some number => simp [realOrText, spelled, coerce, whole]

/-- What a column made of a value it leaves alone, unless it made a real of a text that is an
integer. -/
theorem coerce_coerce_iff : (value.coerce type).coerce type = value.coerce type ↔
    ¬ (type = .integer ∧ ∃ content, value = .text content ∧ SpellsWholeReal content) := by
  cases type with
  | blob => simp [coerce]
  | text => cases value <;> simp [coerce]
  | real =>
      cases value with
      | text content => simpa [coerce] using coerce_realOrText
      | _ => simp [coerce]
  | integer =>
      cases value with
      | null => simp [coerce]
      | integer number => simp [coerce]
      | real x => cases whole : integerOfReal? x <;> simp [coerce, whole]
      | text content =>
          cases spelled : integerOfText? content with
          | some number => simp [coerce, spelled, SpellsWholeReal]
          | none => simpa [coerce, spelled] using coerce_integer_realOrText spelled

/-- A value in the form of a column stays as it is there, unless it is a real that is an integer. -/
theorem InForm.coerce_eq_iff (inForm : value.InForm type) : value.coerce type = value ↔
    ¬ (type = .integer ∧ ∃ x number, value = .real x ∧ integerOfReal? x = some number) := by
  obtain ⟨given, rfl⟩ := inForm
  rw [coerce_coerce_iff, not_iff_not]
  refine and_congr_right fun integral => ?_
  subst integral
  cases given with
  | null => simp [coerce]
  | integer number => simp [coerce]
  | real x => cases whole : integerOfReal? x <;> simp [coerce, whole]
  | text content =>
      cases spelled : integerOfText? content with
      | some number => simp [coerce, spelled, SpellsWholeReal]
      | none =>
          cases read : realOfText? content <;>
            simp [coerce, spelled, SpellsWholeReal, realOrText, read]

theorem null_inForm : Value.null.InForm type :=
  ⟨.null, by cases type <;> rfl⟩

end Value

/-- Whether the values of a tuple have the form of their columns. -/
def Table.InForm (table : Table) (tuple : Tuple) : Prop :=
  ∀ (position : Nat) (column : Column) (value : Value), table.columns[position]? = some column →
    tuple[position]? = some value → value.InForm column.type

/-- Whether all values of a relation have the form of their columns. -/
def Relation.InForm (relation : Relation) : Prop :=
  ∀ tuple ∈ relation.tuples, relation.schema.InForm tuple

def Store.InForm (store : Store) : Prop :=
  ∀ name relation, store.relation name = .ok relation → relation.InForm

/-- Whether the default of a column, if it has one, has the form of the column. -/
def Column.DefaultInForm (column : Column) : Prop :=
  ∀ value ∈ column.default, value.InForm column.type

/-- Whether a plan adds only columns whose defaults have their form. -/
def Plan.AddsInForm : Plan → Prop
  | .alterTable _ (.addColumn column) => column.DefaultInForm
  | _ => True

/-! ## Rows -/

section

variable {table schema : Table} {tuple : Tuple} {column : Column} {value : Value}
variable {relation changed : Relation} {positions : List Nat} {source target : String}

theorem upholds_inForm (valid : table.check = .ok ()) : table.Upholds table.InForm where
  inserted nextId targets values := by
    intro position column value located held
    have given (other : Value)
        (found : (insertTuple table targets values)[position]? = some other) :
        other.InForm column.type := by
      obtain ⟨own, given, ownLocated, rfl⟩ := getElem?_insertTuple found
      cases located.symm.trans ownLocated
      exact ⟨given, rfl⟩
    cases counted : table.countedPosition? with
    | none =>
        rw [counted] at held
        exact given value held
    | some numbered =>
        simp only [counted, numberTuple] at held
        split at held
        · -- The number of the row stands in an integer column.
          by_cases here : numbered = position
          · subst here
            obtain ⟨own, -, ownLocated, -, type⟩ := table.counted_column valid counted
            cases located.symm.trans ownLocated
            rw [List.getElem?_set_self'] at held
            obtain ⟨-, -, rfl⟩ := Option.map_eq_some_iff.mp held
            exact ⟨.integer nextId, by rw [type]; rfl⟩
          · rw [List.getElem?_set_ne here] at held
            exact given value held
        all_goals exact given value held
  assigned assignments tuple formerly := by
    intro position column value located held
    rw [Table.assigned, List.getElem?_mapIdx] at held
    obtain ⟨former, found, rfl⟩ := Option.map_eq_some_iff.mp held
    rw [Table.assignedValue, located]
    cases assignments.reverse.find? fun assignment => assignment.1 == position with
    | none => exact formerly position column former located found
    | some assignment => exact ⟨_, rfl⟩

theorem Table.InForm.append (inForm : table.InForm tuple) (added : value.InForm column.type)
    (wide : tuple.length = table.columns.length) :
    (table.addColumn column).InForm (tuple ++ [value]) := by
  intro position other held located found
  rw [Table.addColumn, List.getElem?_append] at located
  rw [List.getElem?_append, wide] at found
  split at located
  · rename_i within
    rw [if_pos within] at found
    exact inForm position other held located found
  · rename_i beyond
    rw [if_neg beyond] at found
    cases List.mem_singleton.mp (List.mem_of_getElem? located)
    cases List.mem_singleton.mp (List.mem_of_getElem? found)
    exact added

theorem Table.InForm.renameColumn (inForm : table.InForm tuple) :
    (table.renameColumn source target).InForm tuple := by
  intro position column value located found
  rw [Table.renameColumn, List.getElem?_map] at located
  obtain ⟨former, formerly, rfl⟩ := Option.map_eq_some_iff.mp located
  exact inForm position former value formerly found

end

namespace Relation.InForm

variable {relation changed : Relation} {schema : Table} {column : Column} {positions : List Nat}
variable {source target : String}

theorem new : (Relation.new schema).InForm := by
  intro tuple member
  simp [Relation.tuples, Relation.new, Relation.build] at member

theorem alter (inForm : relation.InForm) (columns : schema.columns = relation.schema.columns) :
    (relation.alter schema).InForm := by
  intro tuple member position column value located
  obtain ⟨row, stored, rfl⟩ := List.mem_map.mp member
  have same : schema.tuple row = relation.schema.tuple row := by
    simp only [Table.tuple, Table.columnNames, columns]
  refine fun found => inForm _ (List.mem_map_of_mem stored) position column value ?_ (same ▸ found)
  rw [← columns]
  exact located

/-- Rewritten rows have the form of the new columns if each of them gets it. -/
theorem rewrite {change : Row → Row} (rewritten : relation.rewrite schema change = .ok changed)
    (each : ∀ row ∈ relation.rows, schema.InForm (schema.tuple (change row))) : changed.InForm := by
  obtain ⟨kept, rows, -⟩ := rewrite_spec rewritten
  intro tuple member
  obtain ⟨row, stored, rfl⟩ := List.mem_map.mp member
  rw [rows] at stored
  obtain ⟨former, listed, rfl⟩ := List.mem_map.mp stored
  rw [kept]
  exact each former listed

theorem delete (inForm : relation.InForm) : (relation.delete positions).InForm := by
  intro tuple member
  obtain ⟨row, stored, rfl⟩ := List.mem_map.mp member
  rw [schema_delete]
  rw [rows_delete] at stored
  exact inForm _ (List.mem_map_of_mem ((rowsOutside_sublist 0 relation.rows).subset stored))

end Relation.InForm

/-! ## Statements -/

namespace Store

variable {store after : Store} {relation : Relation} {name : String} {table : Table}

theorem InForm.put (inForm : store.InForm) (rows : relation.InForm) :
    (store.put relation).InForm := by
  intro name other found
  rcases relation_put.mp found with ⟨-, rfl⟩ | ⟨former, -⟩
  · exact rows
  · exact inForm name other former

theorem InForm.erase (inForm : store.InForm) : (Store.mk (store.relations.erase name)).InForm :=
  fun other relation found => inForm other relation (relation_erase.mp found).1

theorem InForm.replace (inForm : store.InForm) (rows : relation.InForm) :
    (store.replace name relation).InForm :=
  inForm.erase.put rows

theorem InForm.alter (inForm : store.InForm) (found : store.relation name = .ok relation)
    (columns : table.columns = relation.schema.columns)
    (altered : store.alter name table = .ok after) : after.InForm := by
  obtain ⟨-, other, otherFound, rfl⟩ := alter_eq_ok_iff.mp altered
  cases found.symm.trans otherFound
  exact inForm.replace ((inForm name relation found).alter columns)

theorem InForm.alterTable {alteration : Alteration} (inForm : store.InForm)
    (wellFormed : store.WellFormed) (adds : (Plan.alterTable name alteration).AddsInForm)
    (altered : store.alterTable name alteration = .ok after) : after.InForm := by
  cases alteration with
  | addColumn column =>
      obtain ⟨relation, changed, found, -, -, -, valid, rewritten, rfl⟩ :=
        addColumn_eq_ok_iff.mp altered
      have formed := wellFormed.relations _ (relation_eq_ok_iff.mp found)
      have added : (column.default.getD .null).InForm column.type := by
        cases given : column.default with
        | none => exact Value.null_inForm
        | some value => exact adds value given
      refine inForm.replace (Relation.InForm.rewrite rewritten fun row stored => ?_)
      rw [Table.tuple_addColumn (Table.columnNames_nodup valid) (formed.rowsHeld row stored).columns]
      exact (inForm name relation found _ (List.mem_map_of_mem stored)).append added
        Table.length_tuple
  | renameTable target =>
      obtain ⟨relation, found, -, rfl⟩ := renameTable_eq_ok_iff.mp altered
      exact inForm.replace ((inForm name relation found).alter rfl)
  | renameColumn source target =>
      obtain ⟨relation, changed, found, -, fresh, rewritten, rfl⟩ :=
        renameColumn_eq_ok_iff.mp altered
      have formed := wellFormed.relations _ (relation_eq_ok_iff.mp found)
      refine inForm.replace (Relation.InForm.rewrite rewritten fun row stored => ?_)
      rw [Table.tuple_renameColumn fresh formed.distinct (formed.rowsHeld row stored).columns]
      exact (inForm name relation found _ (List.mem_map_of_mem stored)).renameColumn

end Store

theorem planColumn_inForm {context : PlanContext} {definition : Language.ColumnDefinition}
    {column : Column} (planned : planColumn context definition = .ok column) :
    column.DefaultInForm := by
  simp only [planColumn, bind_eq_ok_iff, pure_eq_ok_iff] at planned
  obtain ⟨default, -, rfl⟩ := planned
  intro value given
  obtain ⟨plain, -, rfl⟩ := Option.map_eq_some_iff.mp given
  exact ⟨plain, rfl⟩

theorem planStatement_addsInForm {context : PlanContext} {statement : Language.Statement}
    {plan : Plan} (planned : planStatement context statement = .ok plan) : plan.AddsInForm := by
  rcases planStatement_cases planned with
    ⟨_, _, _, _, -, -, -, -, -, rfl⟩ | ⟨_, _, column, -, -, made, rfl⟩ | kept
  · trivial
  · exact planColumn_inForm made
  · cases plan with
    | alterTable table alteration =>
        cases alteration with
        | addColumn column => cases kept
        | _ => trivial
    | _ => trivial

theorem Plan.run_inForm {plan : Plan} {store after : Store} {outcome : Outcome}
    (wellFormed : store.WellFormed) (inForm : store.InForm) (adds : plan.AddsInForm)
    (ran : plan.run store = .ok (after, outcome)) : after.InForm := by
  have formed {name : String} {relation : Relation} (found : store.relation name = .ok relation) :
      relation.WellFormed := wellFormed.relations _ (Store.relation_eq_ok_iff.mp found)
  cases Plan.writes_of_run ran with
  | created free => exact inForm.put .new
  | dropped => exact inForm.erase
  | indexed fresh creates =>
      obtain ⟨relation, _, found, -, -, altered⟩ := Store.createIndex_eq_ok_iff.mp creates
      exact inForm.alter found (by rfl) altered
  | unindexed found drops =>
      obtain ⟨relation, located, rfl⟩ := Store.relation_of_indexOwner? wellFormed found
      exact inForm.alter located (by rfl) drops
  | altered alters => exact inForm.alterTable wellFormed adds alters
  | inserted found _ inserts =>
      refine inForm.replace ?_
      rw [Relation.InForm, (insertAll_wellFormed (formed found) inserts).1]
      exact (upholds_inForm (formed found).schemaValid).insertAll (formed found)
        (inForm _ _ found) inserts
  | updated found updates =>
      refine inForm.replace ?_
      rw [Relation.InForm, (updateAll_wellFormed (formed found) updates).1]
      exact (upholds_inForm (formed found).schemaValid).updateAll (formed found)
        (inForm _ _ found) updates
  | deleted found => exact inForm.replace (inForm _ _ found).delete
  | existed => exact inForm
  | missed => exact inForm
  | indexExisted => exact inForm
  | indexMissed => exact inForm
  | queried => exact inForm

namespace Database

variable {database : Database} {call : Call} {calls : List Call} {relation : Relation}
variable {name : String}

/-- Stored values have the form of their columns, now and after a rollback. -/
structure InForm (database : Database) : Prop where
  current : database.state.store.InForm
  saved : ∀ state, database.undo = some state → state.store.InForm

theorem step_inForm (wellFormed : database.WellFormed) (inForm : database.InForm) :
    (database.step call).InForm := by
  refine ⟨?_, fun state undo => ?_⟩
  · rcases database.step_cases wellFormed call with
      ⟨request, parsed, plan, store, outcome, asked, -, -, planned, ran, performed⟩ |
      ⟨-, saved, held, back⟩ | ⟨same, -⟩
    · have stored : (database.step call).state.store = store := by
        rw [(step_request asked).1, performed]
        rfl
      rw [stored]
      exact Plan.run_inForm wellFormed.current.store inForm.current
        (planStatement_addsInForm planned) ran
    · rw [back]
      exact inForm.saved saved held
    · rw [same]
      exact inForm.current
  · rw [step_undo] at undo
    split at undo
    · cases undo
      exact inForm.current
    · cases undo
    · cases undo
    · exact inForm.saved state undo

theorem after_inForm (wellFormed : database.WellFormed) (inForm : database.InForm) :
    (database.after calls).InForm := by
  induction calls generalizing database with
  | nil => exact inForm
  | cons call rest ih => exact ih (step_wellFormed wellFormed) (step_inForm wellFormed inForm)

/-- Whatever was asked of a database, its values have the form of their columns. -/
theorem Reachable.inForm (reached : database.Reachable)
    (found : database.state.store.relation name = .ok relation) : relation.InForm := by
  obtain ⟨settings, initial, calls, started, rfl⟩ := reached
  refine (after_inForm (initial_wellFormed started) ?_).current name relation found
  simp only [new, ofState, bind_eq_ok_iff, pure_eq_ok_iff] at started
  obtain ⟨key, -, rfl⟩ := started
  constructor
  · intro name relation held
    cases held
  · intro state saved
    cases saved

end Database

end Coffer
