import Coffer.Proofs.FreshNumber

namespace Coffer

/-! # The last number

A counter goes no further than the greatest integer. As long as no row takes that number, the
numbers that rows take are those of a counter without bounds, and none of them was stored before.
At the greatest integer an insertion fails only for a stored value with its key. Where there is
none, the number is given out, whether it was before or not, and the counter starts over at the
least integer.
-/

open Coffer.Language (Resolution)

/-- Where a counter without bounds stands after a row of values, which may take its number from it
or bring one along. -/
def Table.countPast (table : Table) (columns : Option (List String)) (counter : Int)
    (values : List Value) : Int :=
  match insertTargets table columns values.length with
  | .error _ => counter
  | .ok targets =>
    match table.countedValue? (insertTuple table targets values) with
    | some .null => counter + 1
    | some (.integer number) => max counter (number.toInt + 1)
    | _ => counter

/-- The numbers that rows would take from a counter without bounds, up to the first row that
fails. -/
def Inserting.unboundedNumbers (columns : Option (List String)) (resolution : Resolution)
    (state : Inserting) (counter : Int) : List (List Value) → List Int
  | [] => []
  | values :: rest =>
    let table := state.staged.relation.schema
    (if table.takesNumber columns values then [counter] else []) ++
      match insertValues columns resolution state values with
      | .ok next =>
        next.unboundedNumbers columns resolution (table.countPast columns counter values) rest
      | .error _ => []

/-- The numbers that an insertion into a relation would take from a counter without bounds. -/
def Relation.unboundedNumbers (relation : Relation) (columns : Option (List String))
    (resolution : Resolution) (rows : List (List Value)) : List Int :=
  (Inserting.start relation).unboundedNumbers columns resolution relation.nextId.toInt rows

/-- Whether a statement inserts rows of values into a table. -/
def Database.Inserts (database : Database) (table : String) (statement : Language.Statement)
    (parameters : List Value) (columns : Option (List String)) (resolution : Resolution)
    (rows : List (List Value)) : Prop :=
  ∃ source set,
    planStatement { store := database.state.store, parameters } statement =
      .ok (.insert table columns resolution source) ∧
    source.run database.state.store = .ok set ∧ set.rows = rows

/-! ## Counting with and without bounds -/

section

variable {table : Table} {columns : Option (List String)} {resolution : Resolution}
variable {values : List Value} {rows : List (List Value)} {targets : List Nat}
variable {state after : Inserting} {relation : Relation} {nextId number : Int64} {counter : Int}

theorem toInt_maxValue : Int64.maxValue.toInt = 9223372036854775807 := rfl

theorem toInt_max (first second : Int64) :
    (max first second).toInt = max first.toInt second.toInt := by
  by_cases ordered : first ≤ second
  · rw [show max first second = second from if_pos ordered,
      Int.max_eq_right (Int64.le_iff_toInt_le.mp ordered)]
  · have other := Int64.le_iff_toInt_le.mp ((Int64.le_total first second).resolve_left ordered)
    rw [show max first second = first from if_neg ordered, Int.max_eq_left other]

theorem toInt_next (room : nextId ≠ Int64.maxValue) : (nextId + 1).toInt = nextId.toInt + 1 := by
  have most := nextId.toInt_lt
  have least := nextId.le_toInt
  have below : nextId.toInt ≠ 9223372036854775807 := fun same => room (Int64.toInt_inj.mp same)
  rw [Int64.toInt_add, Int64.toInt_one, Int.bmod_eq_of_le] <;> simp at * <;> omega

theorem toInt_followingId :
    (followingId number).toInt = min (number.toInt + 1) Int64.maxValue.toInt := by
  by_cases last : number = Int64.maxValue
  · subst last
    decide
  · have most := number.toInt_lt
    have next := toInt_next last
    have below : number.toInt ≠ 9223372036854775807 := fun same => last (Int64.toInt_inj.mp same)
    have power : (Nat.pow 2 63 : Int) - 1 = 9223372036854775807 := by decide
    rw [followingId, power, if_neg below, next, toInt_maxValue]
    simp at most
    omega

/-- A row takes its number where its counted column is null. -/
theorem countedValue?_of_takesNumber (taken : table.takesNumber columns values = true) :
    ∃ targets, insertTargets table columns values.length = .ok targets ∧
      table.countedValue? (insertTuple table targets values) = some .null := by
  simp only [Table.takesNumber] at taken
  split at taken
  · rename_i position targets counted targeted
    refine ⟨targets, targeted, ?_⟩
    rw [Table.countedValue?, counted, Option.map_some]
    cases held : (insertTuple table targets values).getD position .null with
    | null => rfl
    | _ =>
        rw [held] at taken
        cases taken
  · cases taken

theorem takesNumber_of_countedValue?
    (targeted : insertTargets table columns values.length = .ok targets)
    (missing : table.countedValue? (insertTuple table targets values) = some .null) :
    table.takesNumber columns values = true := by
  obtain ⟨position, counted, held⟩ := Option.map_eq_some_iff.mp missing
  simp only [Table.takesNumber, counted, targeted, held, Value.isNull]

theorem countPast_of_takesNumber (taken : table.takesNumber columns values = true) :
    table.countPast columns counter values = counter + 1 := by
  obtain ⟨targets, targeted, missing⟩ := countedValue?_of_takesNumber taken
  simp only [Table.countPast, targeted, missing]

theorem le_countPast : counter ≤ table.countPast columns counter values := by
  simp only [Table.countPast]
  repeat' split
  all_goals omega

/-- A counter is one without bounds, cut off at the greatest integer, until a row takes that
number. -/
theorem toInt_numberTuple (stands : nextId.toInt = min counter Int64.maxValue.toInt)
    (targeted : insertTargets table columns values.length = .ok targets)
    (room : table.takesNumber columns values = true → nextId ≠ Int64.maxValue) :
    (numberTuple table.countedPosition? nextId (insertTuple table targets values)).2.toInt =
      min (table.countPast columns counter values) Int64.maxValue.toInt := by
  simp only [Table.countPast, targeted]
  cases counted : table.countedPosition? with
  | none => simpa only [Table.countedValue?, counted, Option.map_none, numberTuple] using stands
  | some position =>
      have value : table.countedValue? (insertTuple table targets values) =
          some ((insertTuple table targets values).getD position .null) := by
        rw [Table.countedValue?, counted, Option.map_some]
      rw [value]
      simp only [numberTuple]
      cases held : (insertTuple table targets values).getD position .null with
      | null =>
          have free := room (takesNumber_of_countedValue? targeted (held ▸ value))
          have below : nextId.toInt ≠ 9223372036854775807 :=
            fun same => free (Int64.toInt_inj.mp same)
          simp only [toInt_next free, toInt_maxValue] at stands ⊢
          omega
      | integer number =>
          simp only [toInt_max, toInt_followingId, stands]
          omega
      | real x => exact stands
      | text content => exact stands

theorem nextId_insertValues
    (inserted : insertValues columns resolution state values = .ok after) :
    ∃ targets, insertTargets state.staged.relation.schema columns values.length = .ok targets ∧
      after.nextId = (numberTuple state.staged.relation.schema.countedPosition? state.nextId
        (insertTuple state.staged.relation.schema targets values)).2 := by
  simp only [insertValues, bind_eq_ok_iff] at inserted
  obtain ⟨targets, targeted, _, -, accepted, -, finished⟩ := inserted
  refine ⟨targets, targeted, ?_⟩
  cases accepted <;> cases pure_eq_ok_iff.mp finished <;> rfl

/-- Numbers from a counter without bounds ascend from where it stands. -/
theorem unboundedNumbers_ascending :
    (state.unboundedNumbers columns resolution counter rows).Pairwise (· < ·) ∧
      ∀ number ∈ state.unboundedNumbers columns resolution counter rows, counter ≤ number := by
  induction rows generalizing state counter with
  | nil => exact ⟨.nil, nofun⟩
  | cons values rest ih =>
      rw [Inserting.unboundedNumbers]
      have further : counter ≤ state.staged.relation.schema.countPast columns counter values :=
        le_countPast
      cases inserted : insertValues columns resolution state values with
      | error error =>
          split <;> simp
      | ok next =>
          obtain ⟨ascending, least⟩ := @ih next
            (state.staged.relation.schema.countPast columns counter values)
          by_cases taken : state.staged.relation.schema.takesNumber columns values = true
          · rw [if_pos taken]
            rw [countPast_of_takesNumber taken] at ascending least ⊢
            refine ⟨List.pairwise_cons.mpr ⟨fun number later => ?_, ascending⟩, ?_⟩
            · have := least number later
              omega
            · rintro number (_ | ⟨_, later⟩)
              · exact Int.le_refl _
              · have := least number later
                omega
          · rw [if_neg taken]
            exact ⟨ascending, fun number later => Int.le_trans further (least number later)⟩

/-- As long as no row takes the greatest integer, the numbers taken are those of a counter without
bounds, and only then are all of these below it. -/
theorem numbersTaken_unbounded (stands : state.nextId.toInt = min counter Int64.maxValue.toInt) :
    (Int64.maxValue ∉ state.numbersTaken columns resolution rows ↔
      ∀ number ∈ state.unboundedNumbers columns resolution counter rows,
        number < Int64.maxValue.toInt) ∧
    (Int64.maxValue ∉ state.numbersTaken columns resolution rows →
      (state.numbersTaken columns resolution rows).map Int64.toInt =
        state.unboundedNumbers columns resolution counter rows) := by
  induction rows generalizing state counter with
  | nil => simp [Inserting.numbersTaken, Inserting.unboundedNumbers]
  | cons values rest ih =>
      rw [Inserting.numbersTaken, Inserting.unboundedNumbers]
      by_cases last : state.staged.relation.schema.takesNumber columns values = true ∧
          state.nextId = Int64.maxValue
      · obtain ⟨taken, top⟩ := last
        rw [top] at stands
        have beyond : ¬ counter < Int64.maxValue.toInt := by omega
        simp [taken, top, beyond]
      · have room (taken : state.staged.relation.schema.takesNumber columns values = true) :
            state.nextId ≠ Int64.maxValue := fun top => last ⟨taken, top⟩
        have first : (Int64.maxValue ∉ (if state.staged.relation.schema.takesNumber columns values
              then [state.nextId] else [])) ∧
            (∀ number ∈ (if state.staged.relation.schema.takesNumber columns values
              then [counter] else []), number < Int64.maxValue.toInt) ∧
            (if state.staged.relation.schema.takesNumber columns values
              then [state.nextId] else []).map Int64.toInt =
              if state.staged.relation.schema.takesNumber columns values then [counter] else [] := by
          split
          · rename_i taken
            have below : state.nextId.toInt ≠ Int64.maxValue.toInt :=
              fun same => room taken (Int64.toInt_inj.mp same)
            have most := state.nextId.toInt_lt
            have exact : state.nextId.toInt = counter := by omega
            refine ⟨?_, ?_, ?_⟩
            · simpa using Ne.symm (room taken)
            · simp only [List.forall_mem_singleton]
              omega
            · rw [List.map_singleton, exact]
          · simp
        obtain ⟨absent, below, same⟩ := first
        rw [List.mem_append, not_or, List.forall_mem_append, List.map_append, same]
        cases inserted : insertValues columns resolution state values with
        | error error =>
            exact ⟨⟨fun _ => ⟨below, List.forall_mem_nil _⟩, fun _ => ⟨absent, List.not_mem_nil⟩⟩,
              fun _ => rfl⟩
        | ok next =>
            obtain ⟨targets, targeted, moved⟩ := nextId_insertValues inserted
            have onward := @ih next (state.staged.relation.schema.countPast columns counter values)
              (moved ▸ toInt_numberTuple stands targeted room)
            simp only [absent, not_false_eq_true, true_and, onward.1]
            refine ⟨⟨fun later => ⟨below, later⟩, And.right⟩, fun later => ?_⟩
            rw [onward.2 (onward.1.mpr later)]

theorem toInt_start : (Inserting.start relation).nextId.toInt =
    min relation.nextId.toInt Int64.maxValue.toInt := by
  have most := relation.nextId.toInt_lt
  simp only [Inserting.start, toInt_maxValue]
  simp at most
  omega

/-- As long as no row takes the greatest integer, counting stays within the bounds, in ascending
order and past all numbers that are stored. -/
theorem numbersTaken_within (passed : relation.Passed)
    (free : Int64.maxValue ∉ relation.numbersTaken columns resolution rows) :
    (relation.numbersTaken columns resolution rows).map Int64.toInt =
        relation.unboundedNumbers columns resolution rows ∧
      (relation.numbersTaken columns resolution rows).Pairwise (· < ·) ∧
      ∀ number ∈ relation.numbersTaken columns resolution rows,
        ∀ stored ∈ relation.numbers, stored < number := by
  have same := (@numbersTaken_unbounded columns resolution rows _ _ toInt_start).2 free
  obtain ⟨ascending, least⟩ := @unboundedNumbers_ascending columns resolution rows
    (Inserting.start relation) relation.nextId.toInt
  rw [← same] at ascending least
  refine ⟨same, (List.pairwise_map.mp ascending).imp Int64.lt_iff_toInt_lt.mpr, ?_⟩
  intro number member stored listed
  have onward := Int64.le_iff_toInt_le.mpr (least _ (List.mem_map_of_mem member))
  have before := Std.le_trans (passed stored listed) onward
  by_cases last : stored = Int64.maxValue
  · have most := Int64.le_maxValue number
    rw [last, show followingId Int64.maxValue = Int64.maxValue by decide] at before
    exact absurd (Int64.le_antisymm most before ▸ member) free
  · have room := Int64.lt_of_le_of_ne (Int64.le_maxValue stored) last
    exact Std.lt_of_lt_of_le (lt_followingId room) before

/-- A counter at the greatest integer stays there until a row takes its number. -/
theorem last_mem_numbersTaken (top : state.nextId = Int64.maxValue)
    (some : state.numbersTaken columns resolution rows ≠ []) :
    Int64.maxValue ∈ state.numbersTaken columns resolution rows := by
  induction rows generalizing state with
  | nil => exact absurd rfl some
  | cons values rest ih =>
      rw [Inserting.numbersTaken] at some ⊢
      by_cases taken : state.staged.relation.schema.takesNumber columns values = true
      · rw [if_pos taken, top]
        exact List.mem_cons_self
      · rw [if_neg taken] at some ⊢
        cases inserted : insertValues columns resolution state values with
        | error error => exact absurd (by rw [inserted]; rfl) some
        | ok next =>
            rw [inserted] at some
            obtain ⟨targets, targeted, moved⟩ := nextId_insertValues inserted
            have stands : state.nextId.toInt =
                min Int64.maxValue.toInt Int64.maxValue.toInt := by rw [top]; rfl
            have stays := toInt_numberTuple stands targeted fun given => absurd given taken
            have further : Int64.maxValue.toInt ≤
                state.staged.relation.schema.countPast columns Int64.maxValue.toInt values :=
              le_countPast
            rw [← moved, Int.min_eq_right further] at stays
            exact ih (Int64.toInt_inj.mp stays) some

/-! ## The stored counter at the greatest integer -/

/-- A row that neither passes over nor displaces others comes after all live rows, and shares its
keys with none of them. -/
theorem insertValues_aborting (sound : state.Sound relation) (keeps : resolution ≠ .ignore)
    (leaves : resolution ≠ .replace)
    (inserted : insertValues columns resolution state values = .ok after) :
    ∃ numbered, state.staged.relation.schema.numbered columns state.nextId values = .ok numbered ∧
      after.staged.live = state.staged.live ++ [numbered.1] ∧
      ∀ position ∈ state.staged.relation.schema.uniqueColumns, ∀ live ∈ state.staged.live,
        sharesKeyIn position numbered.1 live = false := by
  have entered := tally_insertValues columns resolution values sound.sound
  rw [inserted] at entered
  obtain ⟨numbered, found, rest⟩ := bind_eq_ok_iff.mp entered.symm
  obtain ⟨live, admitted, tallied⟩ := bind_eq_ok_iff.mp rest
  have grown : after.staged.live = live := congrArg Tally.live (pure_eq_ok_iff.mp tallied).symm
  refine ⟨numbered, found, ?_⟩
  rw [grown]
  rw [Table.admitted] at admitted
  split at admitted
  · rename_i clear
    cases admitted
    refine ⟨rfl, fun position unique live listed => ?_⟩
    have none := List.find?_eq_none.mp clear position unique
    exact Bool.eq_false_iff.mpr fun shared => none (List.any_eq_true.mpr ⟨live, listed, shared⟩)
  · cases resolution with
    | ignore => exact absurd rfl keeps
    | replace => exact absurd rfl leaves
    | _ => cases admitted

/-- Once a live row has the key of the greatest integer, no row can take that number. -/
theorem foldlM_insertValues_last (sound : state.Sound relation) (wellFormed : relation.WellFormed)
    (counted : relation.schema.countedPosition? = some position) (keeps : resolution ≠ .ignore)
    (leaves : resolution ≠ .replace)
    (held : ∃ live ∈ state.staged.live,
      (live.getD position .null).key? = some (.integer Int64.maxValue))
    (last : Int64.maxValue ∈ state.numbersTaken columns resolution rows) :
    ∃ error, rows.foldlM (insertValues columns resolution) state = .error error := by
  induction rows generalizing state with
  | nil => cases last
  | cons values rest ih =>
      rw [List.foldlM_cons]
      cases inserted : insertValues columns resolution state values with
      | error error => exact ⟨error, rfl⟩
      | ok next =>
          obtain ⟨numbered, found, grown, apart⟩ :=
            insertValues_aborting sound keeps leaves inserted
          obtain ⟨live, listed, key⟩ := held
          rw [Inserting.numbersTaken, inserted] at last
          rcases List.mem_append.mp last with here | later
          · split at here
            · rename_i taken
              have top : state.nextId = Int64.maxValue := (List.mem_singleton.mp here).symm
              rw [sound.relation_eq] at found taken apart
              have number := numbered_of_takesNumber
                (Table.lt_of_countedPosition? wellFormed.distinct counted) counted taken found
              have clear := apart position (countedPosition?_mem_uniqueColumns wellFormed counted)
                live listed
              rw [sharesKeyIn_eq_true_iff.mpr ⟨_, by rw [number, top]; rfl, key⟩] at clear
              cases clear
            · cases here
          · refine ih (insertValues_sound sound inserted) ⟨live, ?_, key⟩ later
            rw [grown]
            exact List.mem_append_left _ listed

theorem insertAll_last (wellFormed : relation.WellFormed)
    (counted : relation.schema.countedPosition? = some position) (keeps : resolution ≠ .ignore)
    (leaves : resolution ≠ .replace)
    (held : ∃ value ∈ relation.countedValues, value.key? = some (.integer Int64.maxValue))
    (last : Int64.maxValue ∈ relation.numbersTaken columns resolution rows) :
    ∃ error, relation.insertAll columns resolution rows = .error error := by
  obtain ⟨value, listed, key⟩ := held
  obtain ⟨tuple, stored, found⟩ := List.mem_filterMap.mp listed
  rw [Table.countedValue?, counted, Option.map_some, Option.some.injEq] at found
  obtain ⟨error, failed⟩ := foldlM_insertValues_last (start_sound wellFormed) wellFormed counted
    keeps leaves ⟨tuple, by rwa [Inserting.start, Staged.live_start], found ▸ key⟩ last
  refine ⟨error, ?_⟩
  rw [Relation.insertAll, Relation.stageInsertion]
  change (rows.foldlM _ (Inserting.start relation) >>= _) >>= _ = _
  rw [failed]
  rfl

theorem Table.countedPosition?_exists {column : Column} (counted : table.counted? = some column) :
    ∃ position, table.countedPosition? = some position := by
  have listed : column.name ∈ table.columnNames :=
    List.mem_map_of_mem (List.mem_of_find?_eq_some counted)
  rw [← Option.ne_none_iff_exists', Table.countedPosition?, counted, Option.bind_some]
  exact fun missing => Table.position?_eq_none_iff.mp missing listed

end

namespace Database

variable {database : Database} {relation : Relation} {name : String} {column : Column}
variable {statement : Language.Statement} {parameters : List Value} {rows : List (List Value)}
variable {columns : Option (List String)} {resolution : Resolution} {position : Nat}

theorem run_insertion_fails (wellFormed : database.WellFormed)
    (found : database.state.store.relation name = .ok relation)
    (inserts : database.Inserts name statement parameters columns resolution rows) :
    (∃ error, database.run statement parameters = (database, .error error)) ↔
      ∃ error, relation.insertAll columns resolution rows = .error error := by
  obtain ⟨source, set, planned, ran, rfl⟩ := inserts
  refine exists_congr fun error => ?_
  rw [← run_insertion_error wellFormed found planned ran]
  refine ⟨fun failed => by rw [failed], fun failed => ?_⟩
  exact Prod.ext (run_error wellFormed failed) failed

/-- A row that takes its number from the counter can be inserted if no stored value has the key of
that number. -/
theorem inserts_of_free (wellFormed : database.WellFormed)
    (found : database.state.store.relation name = .ok relation)
    (located : relation.schema.countedPosition? = some position)
    (free : ∀ value ∈ relation.countedValues, value.key? ≠ some (.integer relation.nextId)) :
    ∃ statement rows, database.Inserts name statement [] none .abort rows ∧
      relation.numbersTaken none .abort rows ≠ [] ∧
      ∃ inserted, relation.insertAll none .abort rows = .ok inserted := by
  have formed := wellFormed.current.store.relations _ (Store.relation_eq_ok_iff.mp found)
  obtain ⟨bound, absent⟩ := Tally.fresh_exists
    (relation.tuples.flatMap fun tuple => tuple.filterMap Value.key?)
  have within := Table.lt_of_countedPosition? formed.distinct located
  have inserts := insertAll_talliesAround_exists formed located free
    fun stored listed value member taken => absent bound (Nat.le_refl _)
      (List.mem_flatMap.mpr ⟨stored, listed, List.mem_filterMap.mpr ⟨value, member, taken⟩⟩)
  refine ⟨_, [talliesAround relation.schema.columns.length position bound .null],
    ⟨_, _, planStatement_insertionAround wellFormed found, rfl, rfl⟩, ?_, inserts⟩
  rw [Relation.numbersTaken, Inserting.numbersTaken]
  change (if relation.schema.takesNumber _ _ = true then _ else _) ++ _ ≠ _
  rw [if_pos (takesNumber_talliesAround located within)]
  exact List.cons_ne_nil _ _

/-- As long as no row takes the greatest integer, counting stays within the bounds: the numbers
taken are those of a counter without bounds, in ascending order, and past all stored numbers. A row
that takes the greatest integer fails its statement if a stored value has its key. Where the
counter stands there and none has, rows are inserted with it, although the counter has no further
number to give. -/
theorem last_number_refused_iff_stored (reached : database.Reachable)
    (found : database.state.store.relation name = .ok relation)
    (counted : relation.schema.counted? = some column) :
    (∀ statement parameters columns resolution rows,
      database.Inserts name statement parameters columns resolution rows →
      (Int64.maxValue ∉ relation.numbersTaken columns resolution rows ↔
        ∀ number ∈ relation.unboundedNumbers columns resolution rows,
          number < Int64.maxValue.toInt) ∧
      (Int64.maxValue ∉ relation.numbersTaken columns resolution rows →
        (relation.numbersTaken columns resolution rows).map Int64.toInt =
            relation.unboundedNumbers columns resolution rows ∧
          (relation.numbersTaken columns resolution rows).Pairwise (· < ·) ∧
          ∀ number ∈ relation.numbersTaken columns resolution rows,
            ∀ stored ∈ relation.numbers, stored < number) ∧
      (Int64.maxValue ∈ relation.numbersTaken columns resolution rows →
        resolution ≠ .ignore → resolution ≠ .replace →
        (∃ value ∈ relation.countedValues, value.key? = some (.integer Int64.maxValue)) →
        ∃ error, database.run statement parameters = (database, .error error))) ∧
    (relation.nextId = Int64.maxValue →
      ((∀ statement parameters columns resolution rows,
        database.Inserts name statement parameters columns resolution rows →
        resolution ≠ .ignore → resolution ≠ .replace →
        relation.numbersTaken columns resolution rows ≠ [] →
        ∃ error, database.run statement parameters = (database, .error error)) ↔
        ∃ value ∈ relation.countedValues, value.key? = some (.integer Int64.maxValue))) := by
  have wellFormed := reached.wellFormed
  have formed := wellFormed.current.store.relations _ (Store.relation_eq_ok_iff.mp found)
  obtain ⟨position, located⟩ := Table.countedPosition?_exists counted
  refine ⟨fun statement parameters columns resolution rows inserts => ?_, fun top => ?_⟩
  · have passed := reached.relation_holds Relation.passed_invariant found
    obtain ⟨within, -⟩ := @numbersTaken_unbounded columns resolution rows _ _
      (@toInt_start relation)
    refine ⟨within, numbersTaken_within passed, fun last keeps leaves stored => ?_⟩
    exact (run_insertion_fails wellFormed found inserts).mpr
      (insertAll_last formed located keeps leaves stored last)
  · constructor
    · intro failing
      by_contra free
      simp only [not_exists, not_and] at free
      obtain ⟨statement, rows, given, taking, inserted, inserts⟩ :=
        inserts_of_free wellFormed found located fun value held => top ▸ free value held
      obtain ⟨error, failed⟩ := (run_insertion_fails wellFormed found given).mp
        (failing _ _ _ _ _ given (by decide) (by decide) taking)
      rw [inserts] at failed
      cases failed
    · intro stored statement parameters columns resolution rows given keeps leaves taking
      exact (run_insertion_fails wellFormed found given).mpr
        (insertAll_last formed located keeps leaves stored (last_mem_numbersTaken top taking))

/-- After the row with the greatest integer is deleted, that number is given out once more, and the
next row has the least integer. -/
theorem last_number_given_after_deletion :
    let database := fromTexts ["CREATE TABLE t (id INTEGER PRIMARY KEY, a TEXT)",
      "INSERT INTO t VALUES (9223372036854775807, 'x')", "DELETE FROM t"]
    ∃ relation column, database.state.store.relation "t" = .ok relation ∧
      relation.schema.counted? = some column ∧ relation.nextId = Int64.maxValue ∧
      relation.numbersTaken none .abort [[.null, .text "y"], [.null, .text "z"]] =
        [Int64.maxValue, Int64.minValue] ∧
      ¬ ∀ statement parameters columns resolution rows,
        database.Inserts "t" statement parameters columns resolution rows →
        resolution ≠ .ignore → resolution ≠ .replace →
        relation.numbersTaken columns resolution rows ≠ [] →
        ∃ error, database.run statement parameters = (database, .error error) := by
  intro database
  have reached : database.Reachable := fromTexts_reachable
  have stored : (database.state.store.relation "t").map (fun relation =>
        (relation.countedValues, relation.nextId, relation.schema.counted?.isSome,
          relation.numbersTaken none .abort [[.null, .text "y"], [.null, .text "z"]])) =
      .ok ([], Int64.maxValue, true, [Int64.maxValue, Int64.minValue]) := by decide +kernel
  obtain ⟨relation, found, facts⟩ := map_eq_ok_iff.mp stored
  simp only [Prod.mk.injEq, Option.isSome_iff_exists] at facts
  obtain ⟨held, top, ⟨column, counted⟩, taken⟩ := facts
  refine ⟨relation, column, found, counted, top, taken, fun failing => ?_⟩
  obtain ⟨value, listed, -⟩ :=
    ((last_number_refused_iff_stored reached found counted).2 top).mp failing
  rw [held] at listed
  cases listed

end Database

end Coffer
