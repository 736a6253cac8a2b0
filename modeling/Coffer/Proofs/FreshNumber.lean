import Coffer.Proofs.CompositeIndex
import Coffer.Proofs.UpheldRows

namespace Coffer

/-! # Fresh numbers

The counter follows the integers of its column, while rows are told apart by keys, which integers
share with reals and with texts that spell numbers. No such text is ever in the column, but a real
may be that is equal to an integer. A number from the counter clashes with that, and with nothing
else.
-/

open Coffer.Language (Resolution)

/-- Whether a value is no text that spells a number. -/
def Value.NoNumeral (value : Value) : Prop :=
  ∀ content, value = .text content →
    integerOfText? content = none ∧ realOfText? content = none

/-- Whether no text in the counted column spells a number. -/
def Relation.WithoutNumerals (relation : Relation) : Prop :=
  ∀ value ∈ relation.countedValues, value.NoNumeral

/-- Whether a statement inserts a single row into a table, with a number from the counter. -/
def Database.InsertsNumbered (database : Database) (table : String)
    (statement : Language.Statement) (parameters : List Value) : Prop :=
  ∃ relation columns resolution source set values,
    database.state.store.relation table = .ok relation ∧
    planStatement { store := database.state.store, parameters } statement =
      .ok (.insert table columns resolution source) ∧
    source.run database.state.store = .ok set ∧ set.rows = [values] ∧
    relation.schema.takesNumber columns values = true

/-! ## What comes into the counted column -/

namespace Value

variable {value : Value} {content : String} {number : Int64}

theorem null_noNumeral : Value.null.NoNumeral := by
  rintro content ⟨⟩

theorem integer_noNumeral : (Value.integer number).NoNumeral := by
  rintro content ⟨⟩

/-- A text that an integer column takes as it is spells no number. -/
theorem coerce_integer_noNumeral : (value.coerce .integer).NoNumeral := by
  intro content same
  cases value with
  | null => cases same
  | integer number => cases same
  | real x =>
      simp only [coerce] at same
      split at same <;> cases same
  | text given =>
      simp only [coerce] at same
      split at same
      · cases same
      · rename_i noInteger
        rw [realOrText] at same
        split at same
        · cases same
        · rename_i noReal
          cases same
          exact ⟨noInteger, noReal⟩

/-- Only numbers have the key of an integer, texts that spell them aside. -/
theorem eq_of_key?_integer (plain : value.NoNumeral) (key : value.key? = some (.integer number)) :
    value = .integer number ∨ ∃ x, value = .real x ∧ Key.ofReal x = .integer number := by
  cases value with
  | null => cases key
  | integer other =>
      cases key
      exact .inl rfl
  | real x => exact .inr ⟨x, rfl, Option.some.inj key⟩
  | text content =>
      obtain ⟨noInteger, noReal⟩ := plain content rfl
      rw [key?, Key.ofText, noInteger, noReal] at key
      cases key

end Value

section

variable {table : Table} {tuple : Tuple} {value : Value} {position : Nat} {nextId : Int64}
variable {targets : List Nat} {values : List Value} {assignments : List (Nat × Operand)}
variable {column : Column}

/-- The counted column is an integer primary key. -/
theorem Table.counted_column (valid : table.check = .ok ())
    (counted : table.countedPosition? = some position) :
    ∃ column, table.counted? = some column ∧ table.columns[position]? = some column ∧
      column.primaryKey = true ∧ column.type = .integer := by
  obtain ⟨-, distinct, columns⟩ := check_eq_ok_iff.mp valid
  obtain ⟨column, found, -⟩ := Option.bind_eq_some_iff.mp counted
  rw [countedPosition?_eq distinct] at counted
  obtain ⟨within, autoincrement, -⟩ := List.findIdx?_eq_some_iff_getElem.mp counted
  have located : table.columns[position]? = some column := by
    rw [counted?, List.find?_eq_bind_findIdx?_getElem?, counted] at found
    exact found
  cases (List.getElem?_eq_getElem within).symm.trans located
  have checked := columns _ (List.getElem_mem within)
  exact ⟨_, found, located, (Column.check_eq_ok_iff.mp checked).2.1 autoincrement⟩

theorem getElem?_insertTuple (held : (insertTuple table targets values)[position]? = some value) :
    ∃ (column : Column) (given : Value), table.columns[position]? = some column ∧
      value = given.coerce column.type := by
  rw [insertTuple, List.getElem?_map, Option.map_eq_some_iff] at held
  obtain ⟨⟨given, column⟩, pair, rfl⟩ := held
  exact ⟨column, given, (List.getElem?_zip_eq_some.mp pair).2, rfl⟩

theorem countedValue?_numberTuple (valid : table.check = .ok ())
    (held : table.countedValue?
      (numberTuple table.countedPosition? nextId (insertTuple table targets values)).1 = some value) :
    value.NoNumeral := by
  obtain ⟨position, counted, rfl⟩ := Option.map_eq_some_iff.mp held
  obtain ⟨column, -, located, -, type⟩ := table.counted_column valid counted
  have given : ((insertTuple table targets values).getD position .null).NoNumeral := by
    rw [List.getD_eq_getElem?_getD]
    cases found : (insertTuple table targets values)[position]? with
    | none => exact Value.null_noNumeral
    | some value =>
        obtain ⟨other, given, otherLocated, rfl⟩ := getElem?_insertTuple found
        cases located.symm.trans otherLocated
        rw [type]
        exact Value.coerce_integer_noNumeral
  simp only [counted, numberTuple]
  cases found : (insertTuple table targets values).getD position .null with
  | null =>
      simp only [List.getD_eq_getElem?_getD, List.getElem?_set_self']
      cases (insertTuple table targets values)[position]? with
      | none => exact Value.null_noNumeral
      | some _ => exact Value.integer_noNumeral
  | _ =>
      simp only
      rwa [found] at given ⊢

theorem countedValue?_assigned (valid : table.check = .ok ())
    (plain : ∀ former ∈ table.countedValue? tuple, former.NoNumeral)
    (held : table.countedValue? (table.assigned assignments tuple) = some value) :
    value.NoNumeral := by
  obtain ⟨position, counted, rfl⟩ := Option.map_eq_some_iff.mp held
  obtain ⟨column, -, located, -, type⟩ := table.counted_column valid counted
  rw [Table.countedValue?, counted] at plain
  rw [List.getD_eq_getElem?_getD, Table.assigned, List.getElem?_mapIdx]
  have former : (tuple.getD position .null).NoNumeral := plain _ rfl
  rw [List.getD_eq_getElem?_getD] at former
  cases found : tuple[position]? with
  | none => exact Value.null_noNumeral
  | some value =>
      rw [found, Option.getD_some] at former
      rw [Option.map_some, Option.getD_some, Table.assignedValue, located]
      cases assignments.reverse.find? fun assignment => assignment.1 == position with
      | none => exact former
      | some assignment =>
          simp only [type]
          exact Value.coerce_integer_noNumeral

theorem upholds_noNumeral (valid : table.check = .ok ()) :
    table.Upholds fun tuple => ∀ value ∈ table.countedValue? tuple, value.NoNumeral where
  inserted _ _ _ _ := countedValue?_numberTuple valid
  assigned _ _ plain _ := countedValue?_assigned valid plain

end

theorem Relation.withoutNumerals_iff {relation : Relation} :
    relation.WithoutNumerals ↔ ∀ tuple ∈ relation.tuples,
      ∀ value ∈ relation.schema.countedValue? tuple, value.NoNumeral := by
  refine ⟨fun stored tuple member value held => stored value ?_, fun each value member => ?_⟩
  · exact List.mem_filterMap.mpr ⟨tuple, member, held⟩
  · obtain ⟨tuple, listed, held⟩ := List.mem_filterMap.mp member
    exact each tuple listed value held

theorem withoutNumerals_invariant : Relation.Invariant Relation.WithoutNumerals where
  created schema _ := by
    intro value member
    simp [Relation.countedValues, Relation.tuples, Relation.new, Relation.build] at member
  becomes relation changed wellFormed stored becomes := by
    have upholds := upholds_noNumeral wellFormed.schemaValid
    rcases becomes.counted_cases wellFormed with
      ⟨-, fewer⟩ | ⟨_, _, _, written, inserts, rfl⟩ | ⟨_, _, _, _, updates⟩
    · exact fun value member => stored value (fewer member)
    · rw [Relation.withoutNumerals_iff, (insertAll_wellFormed wellFormed inserts).1]
      exact upholds.insertAll wellFormed (Relation.withoutNumerals_iff.mp stored) inserts
    · rw [Relation.withoutNumerals_iff, (updateAll_wellFormed wellFormed updates).1]
      exact upholds.updateAll wellFormed (Relation.withoutNumerals_iff.mp stored) updates

/-! ## What a number from the counter clashes with -/

section

variable {table : Table} {tuple live : Tuple} {tuples : List Tuple} {name column : String}
variable {relation : Relation} {columns : Option (List String)} {resolution : Resolution}
variable {values : List Value} {position count : Nat} {nextId : Int64} {error : Error}

theorem checkTuple_ne_notUnique : table.checkTuple tuple ≠ .error (.notUnique name column) := by
  have values : ∀ (columns : List Column) (tuple : Tuple),
      Table.checkValues table.name columns tuple ≠ .error (.notUnique name column) := by
    intro columns
    induction columns with
    | nil =>
        intro _ same
        cases same
    | cons first rest ih =>
        intro tuple
        cases tuple with
        | nil =>
            intro same
            cases same
        | cons value values =>
            have single : first.checkValue table.name value ≠ .error (.notUnique name column) := by
              cases value with
              | null =>
                  simp only [Column.checkValue, Value.isNull, Bool.true_and]
                  split
                  all_goals
                    intro same
                    cases same
              | real x =>
                  simp only [Column.checkValue, Value.isNull, Bool.false_and, Bool.false_eq_true,
                    if_false]
                  split
                  all_goals
                    intro same
                    cases same
              | _ =>
                  intro same
                  cases same
            rw [Table.checkValues]
            cases checked : first.checkValue table.name value with
            | error error => exact fun same => single (checked.trans same)
            | ok _ => exact ih values
  rw [Table.checkTuple]
  split
  · intro same
    cases same
  · exact values table.columns tuple

/-- A single row fails for the reason that it is not admitted. -/
theorem insertAll_single_eq_error_iff (wellFormed : relation.WellFormed) :
    relation.insertAll columns resolution [values] = .error error ↔
      relation.schema.enter columns resolution relation.tally values = .error error := by
  have same : (relation.insertOne columns resolution values).map Relation.tuples =
      (relation.schema.enter columns resolution relation.tally values).map Tally.live :=
    tuples_insertOne wellFormed
  rw [Relation.insertOne] at same
  cases inserted : relation.insertAll columns resolution [values] with
  | error reason =>
      rw [inserted] at same
      cases entered : relation.schema.enter columns resolution relation.tally values with
      | error other =>
          rw [entered] at same
          cases same
          rw [Except.error.injEq, Except.error.injEq]
      | ok tally =>
          rw [entered] at same
          cases same
  | ok written =>
      rw [inserted] at same
      cases entered : relation.schema.enter columns resolution relation.tally values with
      | error other =>
          rw [entered] at same
          cases same
      | ok tally => simp

/-- A row that takes its number holds it. -/
theorem numbered_of_takesNumber {numbered : Tuple × Int64}
    (within : position < table.columns.length) (counted : table.countedPosition? = some position)
    (taken : table.takesNumber columns values = true)
    (found : table.numbered columns nextId values = .ok numbered) :
    numbered.1.getD position .null = .integer nextId := by
  simp only [Table.numbered, bind_eq_ok_iff, pure_eq_ok_iff] at found
  obtain ⟨targets, targeted, _, -, rfl⟩ := found
  simp only [Table.takesNumber, counted, targeted] at taken
  simp only [counted, numberTuple]
  cases held : (insertTuple table targets values).getD position .null with
  | null => simp [List.getD_eq_getElem?_getD, length_insertTuple, within]
  | _ =>
      rw [held] at taken
      cases taken

/-- If a row with a number from the counter is not unique in the counted column, then for a stored
value with the same key. -/
theorem key_of_clash (wellFormed : relation.WellFormed)
    (counted : relation.schema.countedPosition? = some position)
    (named : relation.schema.columnNames[position]? = some column)
    (taken : relation.schema.takesNumber columns values = true)
    (failed : relation.insertAll columns resolution [values] = .error (.notUnique name column)) :
    ∃ value ∈ relation.countedValues, value.key? = some (.integer relation.nextId) := by
  have distinct := wellFormed.distinct
  rw [insertAll_single_eq_error_iff wellFormed, Table.enter] at failed
  cases found : relation.schema.numbered columns relation.tally.nextId values with
  | error reason =>
      rw [found] at failed
      cases failed
      simp only [Table.numbered] at found
      cases targeted : insertTargets relation.schema columns values.length with
      | error reason => simp [Table.takesNumber, counted, targeted] at taken
      | ok targets =>
          rw [targeted, ok_bind] at found
          cases checked : relation.schema.checkTuple (numberTuple relation.schema.countedPosition?
              relation.tally.nextId (insertTuple relation.schema targets values)).1 with
          | error other =>
              rw [checked] at found
              cases found
              exact absurd checked checkTuple_ne_notUnique
          | ok _ =>
              rw [checked] at found
              cases found
  | ok numbered =>
      have held := numbered_of_takesNumber (Table.lt_of_countedPosition? wellFormed.distinct counted) counted taken
        found
      rw [found, ok_bind, Table.admitted] at failed
      split at failed
      · cases failed
      · rename_i other first
        have unique := List.mem_of_find?_eq_some first
        have clashes := List.find?_some first
        have seat : other = position := by
          have within : other < relation.schema.columnNames.length := by
            rw [Table.length_columnNames]
            exact Table.lt_of_mem_uniqueColumns distinct unique
          obtain ⟨positionWithin, same⟩ := List.getElem?_eq_some_iff.mp named
          have equal : relation.schema.columnNames[other] =
              relation.schema.columnNames[position] := by
            rw [same]
            split at failed <;> cases failed
            all_goals rw [List.getElem?_eq_getElem within, Option.getD_some]
          exact distinct.getElem_inj_iff.mp equal
        subst seat
        obtain ⟨stored, listed, shared⟩ := List.any_eq_true.mp clashes
        obtain ⟨key, numberKey, storedKey⟩ := sharesKeyIn_eq_true_iff.mp shared
        rw [held] at numberKey
        cases numberKey
        refine ⟨stored.getD other .null, List.mem_filterMap.mpr ⟨stored, listed, ?_⟩, storedKey⟩
        rw [Table.countedValue?, counted, Option.map_some]

/-- The counted column is unique. -/
theorem countedPosition?_mem_uniqueColumns (wellFormed : relation.WellFormed)
    (counted : relation.schema.countedPosition? = some position) :
    position ∈ relation.schema.uniqueColumns := by
  obtain ⟨key, -, located, primary, -⟩ :=
    relation.schema.counted_column wellFormed.schemaValid counted
  exact Table.mem_uniqueColumns.mpr
    (.inl (Table.mem_declaredUnique.mpr ⟨key, located, .inl primary⟩))

/-! ## A row that clashes in the counted column alone -/

/-- Texts for the columns of a table, and a value in one of them. -/
def talliesAround (width position count : Nat) (value : Value) : Tuple :=
  (List.range width).map fun place => if place = position then value else .text (tally count)

variable {width place : Nat} {value : Value} {number : Int64}

theorem length_talliesAround : (talliesAround width position count value).length = width := by
  simp [talliesAround]

theorem getD_talliesAround (within : place < width) :
    (talliesAround width position count value).getD place .null =
      if place = position then value else .text (tally count) := by
  simp [talliesAround, List.getD_eq_getElem?_getD, within]

theorem set_talliesAround (other : Value) :
    (talliesAround width position count value).set position other =
      talliesAround width position count other := by
  refine List.ext_getElem (by simp [talliesAround]) fun place _ _ => ?_
  by_cases here : position = place
  · simp [talliesAround, here]
  · simp [talliesAround, here, Ne.symm here]

theorem insertTuple_talliesAround :
    insertTuple table (List.range table.columns.length)
        (talliesAround table.columns.length position count .null) =
      talliesAround table.columns.length position count .null := by
  rw [insertTuple_all length_talliesAround]
  refine List.ext_getElem (by simp [talliesAround]) fun place _ _ => ?_
  by_cases here : place = position
  · simp [talliesAround, here, Value.coerce]
  · simp [talliesAround, here, Tally.coerce_tally]

theorem checkTuple_talliesAround :
    table.checkTuple (talliesAround table.columns.length position count (.integer number)) =
      .ok () := by
  refine Table.checkTuple_eq_ok_iff.mpr ⟨length_talliesAround, ?_⟩
  rintro ⟨column, value⟩ member
  obtain ⟨place, -, rfl⟩ := List.mem_map.mp (List.of_mem_zip member).2
  refine Column.checkValue_eq_ok_iff.mpr ?_
  by_cases here : place = position <;> simp [here]

theorem insertTargets_all : insertTargets table none (talliesAround table.columns.length position
    count value).length = .ok (List.range table.columns.length) := by
  rw [insertTargets, if_pos length_talliesAround]

theorem takesNumber_talliesAround (counted : table.countedPosition? = some position)
    (within : position < table.columns.length) :
    table.takesNumber none (talliesAround table.columns.length position count .null) = true := by
  simp only [Table.takesNumber, counted, insertTargets_all, insertTuple_talliesAround,
    getD_talliesAround within, if_true, Value.isNull]

theorem numbered_talliesAround (counted : table.countedPosition? = some position)
    (within : position < table.columns.length) :
    table.numbered none nextId (talliesAround table.columns.length position count .null) =
      .ok (talliesAround table.columns.length position count (.integer nextId), nextId + 1) := by
  simp only [Table.numbered, insertTargets_all, ok_bind, insertTuple_talliesAround, counted,
    numberTuple, getD_talliesAround within, if_true, set_talliesAround, checkTuple_talliesAround]
  rfl

theorem find?_eq_some_of_only {items : List Nat} {test : Nat → Bool} (member : place ∈ items)
    (passes : test place = true) (only : ∀ other ∈ items, test other = true → other = place) :
    items.find? test = some place := by
  cases found : items.find? test with
  | none => exact absurd passes (List.find?_eq_none.mp found place member)
  | some other =>
      rw [only other (List.mem_of_find?_eq_some found) (List.find?_some found)]

/-- A row of fresh texts around a number shares keys with stored rows in the counted column only. -/
theorem any_sharesKeyIn_talliesAround (within : place < width)
    (counted : relation.schema.countedPosition? = some position)
    (fresh : ∀ stored ∈ relation.tuples, ∀ value ∈ stored,
      value.key? ≠ some (.text (tally count))) :
    (relation.tuples.any fun stored =>
        sharesKeyIn place (talliesAround width position count (.integer number)) stored) = true ↔
      place = position ∧ ∃ value ∈ relation.countedValues, value.key? = some (.integer number) := by
  constructor
  · intro shares
    obtain ⟨stored, listed, shared⟩ := List.any_eq_true.mp shares
    obtain ⟨key, freshKey, storedKey⟩ := sharesKeyIn_eq_true_iff.mp shared
    rw [getD_talliesAround within] at freshKey
    by_cases here : place = position
    · rw [if_pos here] at freshKey
      cases freshKey
      refine ⟨here, _, List.mem_filterMap.mpr ⟨stored, listed, ?_⟩, storedKey⟩
      rw [Table.countedValue?, counted, Option.map_some, here]
    · rw [if_neg here, Tally.key?_tally] at freshKey
      cases freshKey
      rw [List.getD_eq_getElem?_getD] at storedKey
      cases found : stored[place]? with
      | none =>
          rw [found] at storedKey
          cases storedKey
      | some value =>
          rw [found] at storedKey
          exact absurd storedKey (fresh stored listed value (List.mem_of_getElem? found))
  · rintro ⟨rfl, value, held, sameKey⟩
    obtain ⟨stored, listed, held⟩ := List.mem_filterMap.mp held
    rw [Table.countedValue?, counted] at held
    cases held
    refine List.any_eq_true.mpr ⟨stored, listed, sharesKeyIn_eq_true_iff.mpr ⟨_, ?_, sameKey⟩⟩
    rw [getD_talliesAround within, if_pos rfl]
    rfl

/-- Where a stored value has the key of the next number, a row of fresh texts fails for it. -/
theorem insertAll_talliesAround (wellFormed : relation.WellFormed)
    (counted : relation.schema.countedPosition? = some position)
    (named : relation.schema.columnNames[position]? = some column)
    (clash : ∃ value ∈ relation.countedValues, value.key? = some (.integer relation.nextId))
    (fresh : ∀ stored ∈ relation.tuples, ∀ value ∈ stored,
      value.key? ≠ some (.text (tally count))) :
    relation.insertAll none .abort
        [talliesAround relation.schema.columns.length position count .null] =
      .error (.notUnique relation.schema.name column) := by
  have within := Table.lt_of_countedPosition? wellFormed.distinct counted
  have first : relation.schema.uniqueColumns.find? (fun place => relation.tuples.any fun stored =>
        sharesKeyIn place (talliesAround relation.schema.columns.length position count
          (.integer relation.nextId)) stored) = some position := by
    refine find?_eq_some_of_only (countedPosition?_mem_uniqueColumns wellFormed counted)
      ((any_sharesKeyIn_talliesAround within counted fresh).mpr ⟨rfl, clash⟩)
      fun other otherUnique shares => ?_
    exact ((any_sharesKeyIn_talliesAround
      (Table.lt_of_mem_uniqueColumns wellFormed.distinct otherUnique) counted fresh).mp shares).1
  rw [insertAll_single_eq_error_iff wellFormed, Table.enter, Relation.tally,
    numbered_talliesAround counted within, ok_bind, Table.admitted, first]
  simp only [named, Option.getD_some]
  rfl

/-- Where no stored value has the key of the next number, a row of fresh texts is inserted. -/
theorem insertAll_talliesAround_exists (wellFormed : relation.WellFormed)
    (counted : relation.schema.countedPosition? = some position)
    (free : ∀ value ∈ relation.countedValues, value.key? ≠ some (.integer relation.nextId))
    (fresh : ∀ stored ∈ relation.tuples, ∀ value ∈ stored,
      value.key? ≠ some (.text (tally count))) :
    ∃ inserted, relation.insertAll none .abort
        [talliesAround relation.schema.columns.length position count .null] = .ok inserted := by
  have within := Table.lt_of_countedPosition? wellFormed.distinct counted
  cases tried : relation.insertAll none .abort
      [talliesAround relation.schema.columns.length position count .null] with
  | ok inserted => exact ⟨inserted, rfl⟩
  | error error =>
      rw [insertAll_single_eq_error_iff wellFormed, Table.enter, Relation.tally,
        numbered_talliesAround counted within, ok_bind, Table.admitted] at tried
      split at tried
      · cases tried
      · rename_i place first
        have unique := List.mem_of_find?_eq_some first
        have shares := List.find?_some first
        obtain ⟨-, value, held, key⟩ := (any_sharesKeyIn_talliesAround
          (Table.lt_of_mem_uniqueColumns wellFormed.distinct unique) counted fresh).mp shares
        exact absurd key (free value held)

end

namespace Database

variable {database : Database} {relation : Relation} {name : String} {column : Column}
variable {statement : Language.Statement} {parameters : List Value} {position count width : Nat}

/-- The statement that inserts a row of texts, with a null in one column. -/
def insertionAround (table : String) (width position count : Nat) : Language.Statement :=
  .insert {
    resolution := none, table, columns := none
    source := .values [(List.range width).map fun place =>
      if place = position then .literal .null else .literal (.string (tally count))] }

theorem mapM_constant_around {context : PlanContext} (places : List Nat) :
    (places.map fun place => if place = position then Language.Expression.literal .null
      else .literal (.string (tally count))).mapM context.constant =
      .ok (places.map fun place => if place = position then .null else .text (tally count)) := by
  induction places with
  | nil => rfl
  | cons place rest ih =>
      rw [List.map_cons, List.mapM_cons, ih, List.map_cons]
      by_cases here : place = position
      · rw [if_pos here, if_pos here]
        rfl
      · rw [if_neg here, if_neg here]
        rfl

theorem planStatement_insertionAround (wellFormed : database.WellFormed)
    (found : database.state.store.relation name = .ok relation) :
    planStatement { store := database.state.store, parameters := [] }
        (insertionAround name width position count) =
      .ok (.insert name none .abort (.values [talliesAround width position count .null])) := by
  have named : relation.schema.name = name :=
    wellFormed.current.store.named _ (Store.relation_eq_ok_iff.mp found)
  simp only [planStatement, insertionAround, planInsert, Store.table, found, Except.map, ok_bind,
    Option.getD_none, checkTargets, List.mapM_cons, List.mapM_nil, mapM_constant_around, named]
  rfl

/-- What an insertion of a single row with a number from the counter fails for is what it fails for
in the relation of the table. -/
theorem run_insertion_error {columns : Option (List String)} {resolution : Resolution}
    {source : QueryPlan} {set : RowSet} {error : Error} (wellFormed : database.WellFormed)
    (found : database.state.store.relation name = .ok relation)
    (planned : planStatement { store := database.state.store, parameters } statement =
      .ok (.insert name columns resolution source))
    (ran : source.run database.state.store = .ok set) :
    (database.run statement parameters).2 = .error error ↔
      relation.insertAll columns resolution set.rows = .error error := by
  have apart : database.run statement parameters = database.runPlanned statement parameters := by
    cases statement <;> first | rfl | cases planned
  rw [apart, runPlanned_eq wellFormed, planned, ok_bind]
  simp only [Plan.run, found, ok_bind, ran]
  cases relation.insertAll columns resolution set.rows with
  | error reason => simp
  | ok inserted => simp [pure, Except.pure, ok_bind]

/-- While the counter has room, a number from it has the key of a stored value just where a stored
real is equal to it. Only then does an insertion of a single row with such a number fail for not
being unique in the counted column. -/
theorem next_number_free_iff (reached : database.Reachable)
    (found : database.state.store.relation name = .ok relation)
    (counted : relation.schema.counted? = some column)
    (room : relation.nextId < Int64.maxValue) :
    ((∀ value ∈ relation.countedValues, value.key? ≠ some (.integer relation.nextId)) ↔
      ∀ x, .real x ∈ relation.countedValues → Key.ofReal x ≠ .integer relation.nextId) ∧
    ((∀ statement parameters, database.InsertsNumbered name statement parameters →
        (database.run statement parameters).2 ≠ .error (.notUnique name column.name)) ↔
      ∀ x, .real x ∈ relation.countedValues → Key.ofReal x ≠ .integer relation.nextId) := by
  have wellFormed := reached.wellFormed
  have formed := wellFormed.current.store.relations _ (Store.relation_eq_ok_iff.mp found)
  have schemaName : relation.schema.name = name :=
    wellFormed.current.store.named _ (Store.relation_eq_ok_iff.mp found)
  have free : (∀ value ∈ relation.countedValues, value.key? ≠ some (.integer relation.nextId)) ↔
      ∀ x, .real x ∈ relation.countedValues → Key.ofReal x ≠ .integer relation.nextId := by
    refine ⟨fun none x held same => none _ held (congrArg some same), ?_⟩
    intro none value held key
    have plain := reached.relation_holds withoutNumerals_invariant found value held
    rcases Value.eq_of_key?_integer plain key with rfl | ⟨x, rfl, same⟩
    · have passed := reached.relation_holds Relation.passed_invariant found relation.nextId
        (Relation.mem_numbers.mpr held)
      have past := Std.lt_of_lt_of_le (lt_followingId room) passed
      exact Int64.lt_irrefl past
    · exact none x held same
  obtain ⟨position, located⟩ : ∃ position, relation.schema.countedPosition? = some position := by
    have listed : column.name ∈ relation.schema.columnNames :=
      List.mem_map_of_mem (List.mem_of_find?_eq_some counted)
    rw [← Option.ne_none_iff_exists', Table.countedPosition?, counted, Option.bind_some]
    exact fun missing => Table.position?_eq_none_iff.mp missing listed
  have named : relation.schema.columnNames[position]? = some column.name := by
    rw [Table.countedPosition?, counted, Option.bind_some] at located
    exact (Table.position?_eq_some_iff formed.distinct).mp located
  refine ⟨free, ?_⟩
  rw [← free]
  constructor
  · intro unfailing value held key
    obtain ⟨bound, absent⟩ := Tally.fresh_exists
      (relation.tuples.flatMap fun tuple => tuple.filterMap Value.key?)
    have failed := insertAll_talliesAround formed located named ⟨value, held, key⟩
      fun stored listed value member taken => absent bound (Nat.le_refl _)
        (List.mem_flatMap.mpr ⟨stored, listed, List.mem_filterMap.mpr ⟨value, member, taken⟩⟩)
    have planned := @planStatement_insertionAround _ _ _ position bound
      relation.schema.columns.length wellFormed found
    refine unfailing _ [] ⟨relation, _, _, _, _, _, found, planned, rfl, rfl,
      takesNumber_talliesAround located (Table.lt_of_countedPosition? formed.distinct located)⟩ ?_
    rw [run_insertion_error wellFormed found planned rfl]
    exact schemaName ▸ failed
  · rintro none statement parameters
      ⟨other, columns, resolution, source, set, values, foundOther, planned, ran, single, taken⟩
      failed
    cases foundOther.symm.trans found
    rw [run_insertion_error wellFormed found planned ran, single] at failed
    obtain ⟨value, held, key⟩ := key_of_clash formed located named taken failed
    exact none value held key

/-- A text that spells a real which is an integer stays a real in the counted column, and the
counter does not see it. -/
theorem next_number_not_free_beside_real :
    let database := fromTexts ["CREATE TABLE t (id INTEGER PRIMARY KEY, a TEXT)",
      "INSERT INTO t (id, a) VALUES ('1.0', 'x')"]
    ∃ relation column, database.state.store.relation "t" = .ok relation ∧
      relation.schema.counted? = some column ∧ relation.nextId = 1 ∧
      relation.countedValues = [.real (.ofInt 1)] ∧
      (¬ ∀ value ∈ relation.countedValues, value.key? ≠ some (.integer relation.nextId)) ∧
      ¬ ∀ statement parameters, database.InsertsNumbered "t" statement parameters →
        (database.run statement parameters).2 ≠ .error (.notUnique "t" column.name) := by
  intro database
  have reached : database.Reachable := fromTexts_reachable
  have stored : (database.state.store.relation "t").map (fun relation =>
        (relation.countedValues, relation.nextId, relation.schema.counted?.isSome)) =
      .ok ([.real (.ofInt 1)], 1, true) := by decide +kernel
  obtain ⟨relation, found, facts⟩ := map_eq_ok_iff.mp stored
  simp only [Prod.mk.injEq, Option.isSome_iff_exists] at facts
  obtain ⟨held, next, column, counted⟩ := facts
  have room : relation.nextId < Int64.maxValue := by
    rw [next]
    decide
  obtain ⟨sharing, failing⟩ := next_number_free_iff reached found counted room
  have taken : ¬ ∀ x, .real x ∈ relation.countedValues →
      Key.ofReal x ≠ .integer relation.nextId := by
    intro none
    rw [held, next] at none
    exact none (.ofInt 1) (List.mem_singleton.mpr rfl) (by decide +kernel)
  exact ⟨relation, column, found, counted, next, held, fun free => taken (sharing.mp free),
    fun unfailing => taken (failing.mp unfailing)⟩

end Database

end Coffer
