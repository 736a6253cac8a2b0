import Mathlib.Data.List.Find
import Coffer.Proofs.LiveRows
import Coffer.Proofs.Reachable

namespace Coffer

/-! # Rows inserted together and one by one

An insertion of several rows stages them all before it writes any. It gives the same table, or
fails for the same reason, as an insertion of its own for each of them.
-/

open Coffer.Language (Expression Resolution)

/-- Whether a row of values has its number given by the counter: its counted column is null. -/
def Table.takesNumber (table : Table) (columns : Option (List String)) (values : List Value) :
    Bool :=
  match table.countedPosition?, insertTargets table columns values.length with
  | some position, .ok targets => ((insertTuple table targets values).getD position .null).isNull
  | _, _ => false

/-- An insertion into a relation, before its first row. -/
def Inserting.start (relation : Relation) : Inserting :=
  { staged := .start relation, nextId := relation.nextId }

/-- The numbers that rows take from the counter, up to the first row that fails. -/
def Inserting.numbersTaken (columns : Option (List String)) (resolution : Resolution)
    (state : Inserting) : List (List Value) → List Int64
  | [] => []
  | values :: rest =>
    (if state.staged.relation.schema.takesNumber columns values then [state.nextId] else []) ++
      match insertValues columns resolution state values with
      | .ok next => next.numbersTaken columns resolution rest
      | .error _ => []

/-- The numbers that an insertion into a relation takes from its counter. -/
def Relation.numbersTaken (relation : Relation) (columns : Option (List String))
    (resolution : Resolution) (rows : List (List Value)) : List Int64 :=
  (Inserting.start relation).numbersTaken columns resolution rows

/-- Inserts a single row of values. -/
def Relation.insertOne (columns : Option (List String)) (resolution : Resolution)
    (relation : Relation) (values : List Value) : Except Error Relation :=
  (relation.insertAll columns resolution [values]).map Inserted.relation

/-- The rows of a table after another one came, if all its rows are looked at. -/
def Table.admitted (table : Table) (resolution : Resolution) (live : List Tuple) (tuple : Tuple) :
    Except Error (List Tuple) :=
  match table.uniqueColumns.find? fun column => live.any fun other =>
    sharesKeyIn column tuple other with
  | none => .ok (live ++ [tuple])
  | some column =>
    match resolution with
    | .ignore => .ok live
    | .replace =>
      .ok ((live.filter fun other => !table.uniqueColumns.any fun column =>
        sharesKeyIn column tuple other) ++ [tuple])
    | .abort | .fail | .rollback =>
      .error (.notUnique table.name ((table.columnNames[column]?).getD ""))

/-- The tuple of a row of values, with its number, and the counter after it. -/
def Table.numbered (table : Table) (columns : Option (List String)) (nextId : Int64)
    (values : List Value) : Except Error (Tuple × Int64) := do
  let targets ← insertTargets table columns values.length
  let numbered := numberTuple table.countedPosition? nextId (insertTuple table targets values)
  table.checkTuple numbered.1
  return numbered

/-- The rows of a table, and its counter. -/
structure Tally where
  live : List Tuple
  nextId : Int64

/-- What a row of values makes of the rows and the counter. -/
def Table.enter (table : Table) (columns : Option (List String)) (resolution : Resolution)
    (tally : Tally) (values : List Value) : Except Error Tally := do
  let numbered ← table.numbered columns tally.nextId values
  return ⟨← table.admitted resolution tally.live numbered.1, numbered.2⟩

def Inserting.tally (state : Inserting) : Tally :=
  ⟨state.staged.live, state.nextId⟩

def Relation.tally (relation : Relation) : Tally :=
  ⟨relation.tuples, relation.nextId⟩

section

variable {relation : Relation} {columns : Option (List String)} {resolution : Resolution}
variable {state after : Inserting} {values : List Value} {tuple : Tuple} {nextId : Int64}

theorem insertValues_eq :
    insertValues columns resolution state values = do
      let numbered ← state.staged.relation.schema.numbered columns state.nextId values
      match ← state.staged.accept numbered.1 none resolution with
      | some staged => return { staged := staged.append numbered.1, nextId := numbered.2 }
      | none => return { state with nextId := numbered.2 } := by
  simp only [insertValues, Table.numbered]
  cases insertTargets state.staged.relation.schema columns values.length with
  | error error => rfl
  | ok targets =>
      simp only [ok_bind]
      cases state.staged.relation.schema.checkTuple
        (numberTuple state.staged.relation.schema.countedPosition? state.nextId
          (insertTuple state.staged.relation.schema targets values)).1 <;> rfl

theorem checkTuple_of_numbered {table : Table} {numbered : Tuple × Int64}
    (found : table.numbered columns nextId values = .ok numbered) :
    table.checkTuple numbered.1 = .ok () := by
  simp only [Table.numbered, bind_eq_ok_iff, pure_eq_ok_iff] at found
  obtain ⟨targets, -, ⟨⟩, checked, rfl⟩ := found
  exact checked

/-- What is accepted into the staged rows is what all live rows admit. -/
theorem accept_live (resolution : Resolution) {staged : Staged} (sound : staged.Sound)
    (checked : staged.relation.schema.checkTuple tuple = .ok ()) :
    (staged.accept tuple none resolution).map (fun accepted =>
        match accepted with
        | some cleared => (cleared.append tuple).live
        | none => staged.live) =
      staged.relation.schema.admitted resolution staged.live tuple := by
  have appended : ∀ cleared, staged.accept tuple none resolution = .ok (some cleared) →
      (cleared.append tuple).live = cleared.live ++ [tuple] := by
    intro cleared accepted
    have room := Staged.accept_cleared sound accepted
    refine Staged.live_append (room.sound sound) (Staged.append_sound (room.sound sound) ?_ ?_)
    · rwa [room.relation]
    · rw [room.relation]
      exact room.clear
  have seen : (staged.relation.schema.uniqueColumns.find? fun column =>
        !(staged.clashes tuple none column).isEmpty) =
      staged.relation.schema.uniqueColumns.find? fun column =>
        staged.live.any fun other => sharesKeyIn column tuple other := by
    refine List.find?_congr fun column unique => ?_
    rw [Staged.isEmpty_clashes sound unique, Bool.not_not]
  rw [Staged.accept_eq sound, seen] at appended ⊢
  rw [Table.admitted]
  cases found : staged.relation.schema.uniqueColumns.find? fun column =>
      staged.live.any fun other => sharesKeyIn column tuple other with
  | none =>
      simp only [found] at appended ⊢
      exact congrArg Except.ok (appended staged rfl)
  | some column =>
      cases resolution with
      | replace =>
          simp only [found] at appended ⊢
          refine congrArg Except.ok ((appended _ rfl).trans ?_)
          rw [Staged.live_displaceAll sound fun column member => member]
      | _ => rfl

theorem tally_insertValues (columns : Option (List String)) (resolution : Resolution)
    (values : List Value) (sound : state.staged.Sound) :
    (insertValues columns resolution state values).map Inserting.tally =
      state.staged.relation.schema.enter columns resolution state.tally values := by
  rw [insertValues_eq, Table.enter, map_bind]
  cases found : state.staged.relation.schema.numbered columns state.nextId values with
  | error error => simp only [Inserting.tally, found, error_bind]
  | ok numbered =>
      have admitted := accept_live resolution sound (checkTuple_of_numbered found)
      simp only [Inserting.tally, found, ok_bind]
      rw [← admitted]
      cases state.staged.accept numbered.1 none resolution with
      | error error => rfl
      | ok accepted => cases accepted <;> rfl

namespace Staged

variable {staged : Staged}

theorem checkTuple_of_mem_live (sound : staged.Sound) (member : tuple ∈ staged.live) :
    staged.relation.schema.checkTuple tuple = .ok () := by
  obtain ⟨position, live⟩ := (mem_live sound).mp member
  simp only [liveTuple] at live
  split at live
  · rename_i found
    cases live
    exact sound.conforming _ (mem_of_lookup found)
  · split at live
    · cases live
    · obtain ⟨row, stored, rfl⟩ := Option.map_eq_some_iff.mp live
      exact (sound.base.rowsHeld row (List.mem_of_getElem? stored)).values

theorem tuples_writeInsertion (sound : staged.Sound) (behind : staged.Behind) :
    (writeInsertion staged).relation.tuples = staged.live := by
  rw [Relation.tuples, schema_writeInsertion, rows_writeInsertion_live sound behind, List.map_map]
  refine (List.map_congr_left fun tuple member => ?_).trans (List.map_id _)
  exact Table.tuple_row sound.base.distinct
    (Table.length_of_checkTuple (checkTuple_of_mem_live sound member))

end Staged

theorem followingId_of_lt (room : nextId < Int64.maxValue) :
    max nextId (followingId nextId) = nextId + 1 := by
  have below : nextId.toInt < Nat.pow 2 63 - 1 := Int64.lt_iff_toInt_lt.mp room
  have above := nextId.le_toInt
  have next : (nextId + 1).toInt = nextId.toInt + 1 := by
    rw [Int64.toInt_add, Int64.toInt_one, Int.bmod_eq_of_le] <;> simp at * <;> omega
  have larger : nextId ≤ nextId + 1 := by
    rw [Int64.le_iff_toInt_le]
    omega
  rw [followingId, if_neg (by omega)]
  exact if_pos larger

/-- The number of a row is read off its tuple. -/
theorem counterAfter_tuple {row : Row} (distinct : relation.schema.columnNames.Nodup) :
    relation.counterAfter row =
      match relation.schema.countedPosition? with
      | none => relation.nextId
      | some position =>
        match (relation.schema.tuple row).getD position .null with
        | .integer id => max relation.nextId (followingId id)
        | _ => relation.nextId := by
  rw [Relation.counterAfter, Table.countedPosition?]
  cases counted : relation.schema.counted? with
  | none => rfl
  | some column =>
      have listed : column.name ∈ relation.schema.columnNames :=
        List.mem_map_of_mem (List.mem_of_find?_eq_some counted)
      cases located : relation.schema.position? column.name with
      | none => exact absurd listed (Table.position?_eq_none_iff.mp located)
      | some position =>
          have named := (Table.position?_eq_some_iff distinct).mp located
          have held : (relation.schema.tuple row).getD position .null =
              (row.get? column.name).getD .null := by
            simp [List.getD_eq_getElem?_getD, Table.tuple, named]
          simp only [Option.bind_some, located, held]
          cases row.get? column.name with
          | none => rfl
          | some value => cases value <;> rfl

/-- Once a row is stored, the counter is where its number has moved it to. -/
theorem counterAfter_numbered {numbered : Tuple × Int64} (wellFormed : relation.WellFormed)
    (found : relation.schema.numbered columns relation.nextId values = .ok numbered)
    (room : relation.schema.takesNumber columns values = true →
      relation.nextId < Int64.maxValue) :
    relation.counterAfter (relation.schema.row numbered.1) = numbered.2 := by
  rw [counterAfter_tuple wellFormed.distinct, Table.tuple_row wellFormed.distinct
    (Table.length_of_checkTuple (checkTuple_of_numbered found))]
  simp only [Table.numbered, bind_eq_ok_iff, pure_eq_ok_iff] at found
  obtain ⟨targets, targeted, _, checked, rfl⟩ := found
  have same := Table.length_of_checkTuple checked
  cases counted : relation.schema.countedPosition? with
  | none => rfl
  | some position =>
      have within := Table.lt_of_countedPosition? wellFormed.distinct counted
      simp only [counted, Table.takesNumber, targeted] at room
      simp only [counted, numberTuple] at same ⊢
      cases held : (insertTuple relation.schema targets values).getD position .null with
      | null =>
          simp only [held, List.length_set] at same room ⊢
          have numbered : ((insertTuple relation.schema targets values).set position
              (.integer relation.nextId)).getD position .null = .integer relation.nextId := by
            simp [List.getD_eq_getElem?_getD, same, within]
          rw [numbered]
          exact followingId_of_lt (room rfl)
      | _ => simp only [held]

theorem start_sound (wellFormed : relation.WellFormed) :
    (Inserting.start relation).Sound relation :=
  ⟨rfl, Staged.start_sound wellFormed, by simp [Inserting.start, Staged.Behind, Staged.start]⟩

theorem tally_start : (Inserting.start relation).tally = relation.tally := by
  rw [Inserting.tally, Inserting.start, Staged.live_start, Relation.tally]

theorem insertOne_eq :
    relation.insertOne columns resolution values =
      (insertValues columns resolution (.start relation) values).map fun state =>
        (writeInsertion state.staged).relation := by
  simp only [Relation.insertOne, Relation.insertAll, Relation.stageInsertion, List.foldlM_cons,
    List.foldlM_nil, bind_pure]
  change Except.map _ ((insertValues columns resolution (.start relation) values >>= _) >>= _) = _
  cases insertValues columns resolution (.start relation) values <;> rfl

/-- The rows that a single insertion leaves. -/
theorem tuples_insertOne (wellFormed : relation.WellFormed) :
    (relation.insertOne columns resolution values).map Relation.tuples =
      (relation.schema.enter columns resolution relation.tally values).map Tally.live := by
  have sound := start_sound wellFormed
  have entered := tally_insertValues columns resolution values sound.sound
  rw [tally_start, sound.relation_eq] at entered
  rw [← entered, insertOne_eq]
  cases inserted : insertValues columns resolution (.start relation) values with
  | error error => rfl
  | ok state =>
      have valid := insertValues_sound sound inserted
      exact congrArg Except.ok (Staged.tuples_writeInsertion valid.sound valid.behind)

/-- Only a statement that ignores clashes passes a row over. -/
theorem accept_ne_none {staged : Staged} {own : Option Nat} (keeps : resolution ≠ .ignore) :
    staged.accept tuple own resolution ≠ .ok none := by
  rw [Staged.accept]
  split
  · simp
  · cases resolution <;> simp at keeps ⊢

theorem nextId_delete {positions : List Nat} :
    (relation.delete positions).nextId = relation.nextId := by
  simp only [Relation.delete]
  split <;> rfl

/-- A row that is not passed over moves the stored counter as it moves that of its insertion. -/
theorem nextId_insertOne (wellFormed : relation.WellFormed)
    (keeps : resolution ≠ .ignore)
    (room : relation.schema.takesNumber columns values = true →
      relation.nextId < Int64.maxValue)
    (inserted : insertValues columns resolution (.start relation) values = .ok after) :
    (writeInsertion after.staged).relation.nextId = after.nextId := by
  rw [insertValues_eq, bind_eq_ok_iff] at inserted
  obtain ⟨numbered, found, inserted⟩ := inserted
  obtain ⟨accepted, accepts, finished⟩ := bind_eq_ok_iff.mp inserted
  cases accepted with
  | none => exact absurd accepts (accept_ne_none keeps)
  | some cleared =>
      cases pure_eq_ok_iff.mp finished
      have clear := Staged.accept_cleared (start_sound wellFormed).sound accepts
      have unstaged : cleared.tuples = [] :=
        List.eq_nil_iff_forall_not_mem.mpr fun entry member => by
          simpa [Inserting.start, Staged.start] using clear.mem_tuples member
      have single : (cleared.append numbered.1).tuples = [(cleared.nextPosition, numbered.1)] := by
        simp [Staged.append, Staged.stage, Staged.tuples_unstage, unstaged, Staged.placeTuple]
      have based : (cleared.append numbered.1).relation = relation := by
        rw [Staged.append, Staged.relation_stage, clear.relation]
        rfl
      rw [← counterAfter_numbered wellFormed found room]
      simp only [writeInsertion, single, based, List.map_cons, List.map_nil, List.foldl_cons,
        List.foldl_nil, Relation.insert, Relation.counterAfter, Relation.schema_delete,
        nextId_delete]

/-- Where no number is taken, the counter does not matter to the tuple. -/
theorem numbered_fst {table : Table} (given : table.takesNumber columns values = false)
    (first second : Int64) :
    (table.numbered columns first values).map Prod.fst =
      (table.numbered columns second values).map Prod.fst := by
  simp only [Table.numbered, Table.takesNumber] at given ⊢
  cases targeted : insertTargets table columns values.length with
  | error error => rfl
  | ok targets =>
      have same : (numberTuple table.countedPosition? first (insertTuple table targets values)).1 =
          (numberTuple table.countedPosition? second (insertTuple table targets values)).1 := by
        cases counted : table.countedPosition? with
        | none => rfl
        | some position =>
            simp only [counted, targeted] at given
            simp only [numberTuple]
            cases held : (insertTuple table targets values).getD position .null with
            | null =>
                rw [held] at given
                cases given
            | _ => rfl
      simp only [ok_bind, map_bind, same]
      cases table.checkTuple
        (numberTuple table.countedPosition? second (insertTuple table targets values)).1 with
      | error error => rfl
      | ok _ => exact congrArg Except.ok same

theorem live_enter {table : Table} {tally : Tally} :
    (table.enter columns resolution tally values).map Tally.live =
      (table.numbered columns tally.nextId values).map Prod.fst >>=
        table.admitted resolution tally.live := by
  rw [Table.enter, map_bind]
  cases table.numbered columns tally.nextId values with
  | error error => rfl
  | ok numbered =>
      simp only [ok_bind, Except.map]
      cases table.admitted resolution tally.live numbered.1 <;> rfl

/-- A relation that stands where an insertion stands which has not written its rows yet. The
counters may differ where clashes are ignored: rows that are passed over move only that of the
insertion. -/
structure InStep (resolution : Resolution) (state : Inserting) (relation : Relation) : Prop where
  schema : relation.schema = state.staged.relation.schema
  tuples : relation.tuples = state.staged.live
  nextId : resolution ≠ .ignore → relation.nextId = state.nextId

theorem InStep.start : InStep resolution (.start relation) relation where
  schema := rfl
  tuples := Staged.live_start.symm
  nextId := fun _ => rfl

/-- A single row has the same effect on both. -/
theorem InStep.tuples_insertOne (inStep : InStep resolution state relation)
    (wellFormed : relation.WellFormed) (sound : state.staged.Sound)
    (own : resolution = .ignore → relation.schema.takesNumber columns values = false) :
    (relation.insertOne columns resolution values).map Relation.tuples =
      (insertValues columns resolution state values).map fun state => state.staged.live := by
  have staged : (insertValues columns resolution state values).map (fun state => state.staged.live) =
      ((insertValues columns resolution state values).map Inserting.tally).map Tally.live := by
    cases insertValues columns resolution state values <;> rfl
  rw [Coffer.tuples_insertOne wellFormed, staged, tally_insertValues _ _ _ sound, ← inStep.schema,
    live_enter, live_enter]
  have prepared : (relation.schema.numbered columns relation.nextId values).map Prod.fst =
      (relation.schema.numbered columns state.nextId values).map Prod.fst := by
    by_cases ignores : resolution = .ignore
    · exact numbered_fst (own ignores) _ _
    · rw [inStep.nextId ignores]
  simp only [Relation.tally, Inserting.tally, prepared, inStep.tuples]

/-- After a single row that succeeds both are in step again. -/
theorem InStep.insertOne {base : Relation} (inStep : InStep resolution state relation)
    (wellFormed : relation.WellFormed) (sound : state.Sound base)
    (own : resolution = .ignore → relation.schema.takesNumber columns values = false)
    (room : relation.schema.takesNumber columns values = true → state.nextId < Int64.maxValue)
    (inserted : insertValues columns resolution state values = .ok after) :
    ∃ changed, relation.insertOne columns resolution values = .ok changed ∧
      changed.WellFormed ∧ InStep resolution after changed := by
  have tuples := inStep.tuples_insertOne wellFormed sound.sound own
  rw [inserted] at tuples
  obtain ⟨changed, changes, left⟩ := map_eq_ok_iff.mp tuples
  obtain ⟨written, insertedAll, rfl⟩ := map_eq_ok_iff.mp changes
  obtain ⟨sameSchema, valid⟩ := insertAll_wellFormed wellFormed insertedAll
  have afterSound := insertValues_sound sound inserted
  refine ⟨written.relation, changes, valid, ?_, left, fun keeps => ?_⟩
  · rw [sameSchema, inStep.schema, sound.relation_eq, afterSound.relation_eq]
  · have sameTally : relation.tally = state.tally := by
      rw [Relation.tally, Inserting.tally, inStep.tuples, inStep.nextId keeps]
    have single := tally_insertValues columns resolution values (start_sound wellFormed).sound
    rw [tally_start, (start_sound wellFormed).relation_eq, sameTally, inStep.schema,
      ← tally_insertValues columns resolution values sound.sound, inserted] at single
    obtain ⟨alone, insertedAlone, tally⟩ := map_eq_ok_iff.mp single
    rw [insertOne_eq, insertedAlone] at changes
    rw [← Except.ok.inj changes, nextId_insertOne wellFormed keeps (by rwa [inStep.nextId keeps]) insertedAlone]
    exact congrArg Tally.nextId tally

/-- Rows one after another have the same effect on both, as long as the counter has room. -/
theorem InStep.tuples_foldlM {base : Relation} {rows : List (List Value)}
    (inStep : InStep resolution state relation) (wellFormed : relation.WellFormed)
    (sound : state.Sound base)
    (room : ∀ number ∈ state.numbersTaken columns resolution rows, number < Int64.maxValue)
    (own : resolution = .ignore → state.numbersTaken columns resolution rows = []) :
    (rows.foldlM (Relation.insertOne columns resolution) relation).map Relation.tuples =
      (rows.foldlM (insertValues columns resolution) state).map fun state => state.staged.live := by
  induction rows generalizing state relation with
  | nil => exact congrArg Except.ok inStep.tuples
  | cons values rest ih =>
      rw [List.foldlM_cons, List.foldlM_cons, map_bind, map_bind]
      rw [Inserting.numbersTaken, ← inStep.schema] at room own
      have given (ignores : resolution = .ignore) :
          relation.schema.takesNumber columns values = false := by
        have none := (List.append_eq_nil_iff.mp (own ignores)).1
        cases taken : relation.schema.takesNumber columns values with
        | false => rfl
        | true => simp [taken] at none
      have below (taken : relation.schema.takesNumber columns values = true) :
          state.nextId < Int64.maxValue :=
        room state.nextId (by simp [taken])
      have tuples := inStep.tuples_insertOne wellFormed sound.sound given
      cases inserted : insertValues columns resolution state values with
      | error error =>
          rw [inserted] at tuples
          cases alone : relation.insertOne columns resolution values with
          | error other =>
              rw [alone] at tuples
              cases tuples
              rfl
          | ok changed =>
              rw [alone] at tuples
              cases tuples
      | ok next =>
          obtain ⟨changed, alone, valid, nextInStep⟩ :=
            inStep.insertOne wellFormed sound given below inserted
          simp only [inserted] at room own
          rw [alone, ok_bind, ok_bind]
          refine ih nextInStep valid (insertValues_sound sound inserted)
            (fun number member => room number (List.mem_append_right _ member))
            (fun ignores => (List.append_eq_nil_iff.mp (own ignores)).2)

theorem tuples_insertAll {rows : List (List Value)} (wellFormed : relation.WellFormed) :
    (relation.insertAll columns resolution rows).map (fun inserted => inserted.relation.tuples) =
      (rows.foldlM (insertValues columns resolution) (.start relation)).map fun state =>
        state.staged.live := by
  cases staged : rows.foldlM (insertValues columns resolution) (.start relation) with
  | error error =>
      have fails : relation.stageInsertion columns resolution rows = .error error := by
        rw [Relation.stageInsertion]
        exact congrArg (· >>= _) staged
      rw [Relation.insertAll, fails]
      rfl
  | ok state =>
      have stages : relation.stageInsertion columns resolution rows = .ok state.staged := by
        rw [Relation.stageInsertion]
        exact congrArg (· >>= _) staged
      obtain ⟨-, sound, behind⟩ := stageInsertion_sound wellFormed stages
      rw [Relation.insertAll, stages]
      exact congrArg Except.ok (Staged.tuples_writeInsertion sound behind)

theorem rows_eq_of_tuples (wellFormed : relation.WellFormed) :
    relation.rows = relation.tuples.map relation.schema.row := by
  rw [Relation.tuples, List.map_map]
  refine (List.map_id _).symm.trans (List.map_congr_left fun row member => ?_)
  exact (Table.row_tuple (wellFormed.rowsHeld row member).columns wellFormed.distinct).symm

theorem insertOne_wellFormed {changed : Relation} (wellFormed : relation.WellFormed)
    (inserted : relation.insertOne columns resolution values = .ok changed) :
    changed.schema = relation.schema ∧ changed.WellFormed := by
  obtain ⟨written, inserts, rfl⟩ := map_eq_ok_iff.mp inserted
  exact insertAll_wellFormed wellFormed inserts

/-- All rows at once leave the same rows as one after another, or fail as the first of them does
that fails. -/
theorem rows_insertAll {rows : List (List Value)} (wellFormed : relation.WellFormed)
    (room : ∀ number ∈ relation.numbersTaken columns resolution rows, number < Int64.maxValue)
    (own : resolution = .ignore → relation.numbersTaken columns resolution rows = []) :
    (relation.insertAll columns resolution rows).map (fun inserted => inserted.relation.rows) =
      (rows.foldlM (Relation.insertOne columns resolution) relation).map Relation.rows := by
  have tuples := InStep.start.tuples_foldlM wellFormed (start_sound wellFormed) room own
  rw [← tuples_insertAll wellFormed] at tuples
  cases inserted : relation.insertAll columns resolution rows with
  | error error =>
      rw [inserted] at tuples
      cases each : rows.foldlM (Relation.insertOne columns resolution) relation with
      | error other =>
          rw [each] at tuples
          cases tuples
          rfl
      | ok last =>
          rw [each] at tuples
          cases tuples
  | ok written =>
      rw [inserted] at tuples
      obtain ⟨last, each, same⟩ := map_eq_ok_iff.mp tuples
      obtain ⟨writtenSchema, writtenValid⟩ := insertAll_wellFormed wellFormed inserted
      obtain ⟨lastSchema, lastValid⟩ := foldlM_ok_invariant
        (fun changed => changed.schema = relation.schema ∧ changed.WellFormed)
        (fun state values after _ holds step =>
          have ⟨sameSchema, valid⟩ := insertOne_wellFormed holds.2 step
          ⟨sameSchema.trans holds.1, valid⟩)
        ⟨rfl, wellFormed⟩ each
      rw [each]
      have left : written.relation.rows = last.rows := by
        rw [rows_eq_of_tuples writtenValid, rows_eq_of_tuples lastValid, writtenSchema, lastSchema,
          same]
      exact congrArg Except.ok left

end

/-- An INSERT of rows that are still to be given. -/
structure RowInsertion where
  caller : Caller
  resolution : Option Resolution
  table : String
  columns : Option (List String)
  /-- The values of placeholders in the rows. -/
  parameters : List Value

namespace RowInsertion

/-- The resolution of clashes. -/
def rule (insertion : RowInsertion) : Resolution :=
  insertion.resolution.getD .abort

/-- The statement with its rows. -/
def statement (insertion : RowInsertion) (rows : List (List Expression)) :
    Language.ParsedStatement :=
  let statement : Language.Statement := .insert
    { resolution := insertion.resolution, table := insertion.table, columns := insertion.columns
      source := .values rows }
  { sql := statement.render, statement, parameters := insertion.parameters.length
    diagnosis := statement.diagnosis }

def request (insertion : RowInsertion) (rows : List (List Expression)) : Request :=
  { sql := (insertion.statement rows).sql, parameters := insertion.parameters
    caller := insertion.caller }

/-- The values of rows of constants. -/
def values (insertion : RowInsertion) (database : Database) (rows : List (List Expression)) :
    Except Error (List (List Value)) :=
  rows.mapM fun row => row.mapM
    (PlanContext.constant { store := database.state.store, parameters := insertion.parameters })

/-- The numbers that rows take from the counter of the table. -/
def numbersTaken (insertion : RowInsertion) (database : Database) (rows : List (List Value)) :
    List Int64 :=
  match database.state.store.relation insertion.table with
  | .ok relation => relation.numbersTaken insertion.columns insertion.rule rows
  | .error _ => []

end RowInsertion

/-- The database after an INSERT of rows, unless it fails. -/
def Database.insertRows (database : Database) (insertion : RowInsertion)
    (rows : List (List Expression)) : Except Error Database :=
  match database.performParsed (insertion.statement rows) (insertion.request rows) with
  | (after, .ok _) => .ok after
  | (_, .error error) => .error error

/-- The database after an INSERT of its own for each of several rows, unless one fails. -/
def Database.insertEach (database : Database) (insertion : RowInsertion)
    (rows : List (List Expression)) : Except Error Database :=
  rows.foldlM (fun database row => database.insertRows insertion [row]) database

namespace Database

variable {database after : Database} {insertion : RowInsertion} {relation : Relation}
variable {rows : List (List Expression)} {row : List Expression} {values : List (List Value)}

/-- The rows are evaluated each by itself. -/
theorem values_cons {rest : List (List Expression)}
    (constants : insertion.values database (row :: rest) = .ok values) :
    ∃ first others, insertion.values database [row] = .ok [first] ∧
      insertion.values database rest = .ok others ∧ values = first :: others := by
  simp only [RowInsertion.values, List.mapM_cons, bind_eq_ok_iff, pure_eq_ok_iff] at constants
  obtain ⟨first, firstConstant, others, restConstant, rfl⟩ := constants
  refine ⟨first, others, ?_, restConstant, rfl⟩
  simp only [RowInsertion.values, List.mapM_cons, List.mapM_nil, firstConstant, ok_bind, pure_bind]
  rfl

theorem diagnosis_statement (even : ∀ row ∈ rows, ∀ other ∈ rows, row.length = other.length)
    (member : row ∈ rows) :
    (insertion.statement rows).diagnosis = (insertion.statement [row]).diagnosis := by
  simp only [RowInsertion.statement, Language.Statement.diagnosis]
  cases rows with
  | nil => simp at member
  | cons first rest =>
      have same := even first List.mem_cons_self row member
      cases columns : insertion.columns with
      | none =>
          have level : (rest.any fun row => row.length != first.length) = false := by
            rw [List.any_eq_false]
            intro other listed
            simp [even other (List.mem_cons_of_mem _ listed) first List.mem_cons_self]
          simp [Language.Insert.diagnosis, level]
      | some names =>
          cases names with
          | nil => rfl
          | cons name others =>
              have agree : ∀ other ∈ first :: rest, other.length = row.length :=
                fun other listed => even other listed row member
              by_cases fits : row.length = (name :: others).length
              · have none : (first :: rest).find? (fun row =>
                    row.length != (name :: others).length) = none := by
                  rw [List.find?_eq_none]
                  intro other listed
                  simp [agree other listed, fits]
                simp only [Language.Insert.diagnosis, none, List.find?_cons, fits, bne_self_eq_false,
                  List.find?_nil]
              · have differs : (row.length != (name :: others).length) = true := by
                  simpa using fits
                simp only [Language.Insert.diagnosis, List.find?_cons, same, differs]

/-- What stands before the rows themselves: whether the statement may run, and whether its target
columns are there. -/
def insertionGate (database : Database) (insertion : RowInsertion) (table : Table)
    (rows : List (List Expression)) : Except Error Unit := do
  database.check (insertion.statement rows) (insertion.request rows)
  checkTargets table [] (insertion.columns.getD [])

theorem insertRows_eq (wellFormed : database.WellFormed)
    (found : database.state.store.relation insertion.table = .ok relation)
    (constants : insertion.values database rows = .ok values) :
    database.insertRows insertion rows = do
      database.insertionGate insertion relation.schema rows
      let inserted ← relation.insertAll insertion.columns insertion.rule values
      return database.withStore
        (database.state.store.holding insertion.table inserted.relation) := by
  have named : relation.schema.name = insertion.table :=
    wellFormed.current.store.named _ (Store.relation_eq_ok_iff.mp found)
  have valid := wellFormed.current.store.relations _ (Store.relation_eq_ok_iff.mp found)
  rw [insertRows, performParsed_eq, insertionGate]
  cases database.check (insertion.statement rows) (insertion.request rows) with
  | error error => rfl
  | ok _ =>
      have ran : database.run (insertion.statement rows).statement insertion.parameters =
          database.runPlanned (insertion.statement rows).statement insertion.parameters := rfl
      have planned : planStatement
            { store := database.state.store, parameters := insertion.parameters }
            (insertion.statement rows).statement = do
          checkTargets relation.schema [] (insertion.columns.getD [])
          return .insert relation.schema.name insertion.columns
            insertion.rule (.values values) := by
        simp only [RowInsertion.values] at constants
        simp only [RowInsertion.statement, planStatement, planInsert, Store.table, found,
          Except.map, ok_bind, constants, Functor.map, RowInsertion.rule]
      simp only [RowInsertion.request, ran, runPlanned_eq wellFormed, planned, ok_bind]
      cases checkTargets relation.schema [] (insertion.columns.getD []) with
      | error error => rfl
      | ok _ =>
          simp only [ok_bind, pure_bind, Plan.run, named, found, QueryPlan.run]
          cases inserts : relation.insertAll insertion.columns insertion.rule
              values with
          | error error => rfl
          | ok inserted =>
              have sameSchema := (insertAll_wellFormed valid inserts).1
              simp only [ok_bind]
              rw [Store.replace_eq_holding (by rw [sameSchema, named])]
              rfl

/-- A single row of several meets the same conditions as all of them. -/
theorem insertionGate_single {table : Table}
    (even : ∀ row ∈ rows, ∀ other ∈ rows, row.length = other.length) (member : row ∈ rows) :
    database.insertionGate insertion table rows =
      database.insertionGate insertion table [row] := by
  rw [insertionGate, insertionGate, check, check, diagnosis_statement even member]
  rfl

theorem insertRows_wellFormed (wellFormed : database.WellFormed)
    (inserted : database.insertRows insertion rows = .ok after) : after.WellFormed := by
  have performed : (database.performParsed (insertion.statement rows)
      (insertion.request rows)).1.WellFormed := performParsed_wellFormed wellFormed
  rw [insertRows] at inserted
  split at inserted
  · rename_i done
    cases inserted
    rwa [done] at performed
  · cases inserted

theorem insertRows_single {first : List Value} (wellFormed : database.WellFormed)
    (found : database.state.store.relation insertion.table = .ok relation)
    (allowed : database.insertionGate insertion relation.schema [row] = .ok ())
    (constant : insertion.values database [row] = .ok [first]) :
    database.insertRows insertion [row] =
      (relation.insertOne insertion.columns insertion.rule first).map
        fun changed => database.withStore (database.state.store.holding insertion.table changed) := by
  rw [insertRows_eq wellFormed found constant, allowed, ok_bind, Relation.insertOne]
  cases relation.insertAll insertion.columns insertion.rule [first] <;> rfl

/-- Rows that may be inserted go one after another into the relation of the table. -/
theorem insertEach_eq (wellFormed : database.WellFormed)
    (found : database.state.store.relation insertion.table = .ok relation)
    (allowed : ∀ row ∈ rows, database.insertionGate insertion relation.schema [row] = .ok ())
    (constants : insertion.values database rows = .ok values) :
    database.insertEach insertion rows =
      (values.foldlM
        (Relation.insertOne insertion.columns insertion.rule) relation).map
        fun last => database.withStore (database.state.store.holding insertion.table last) := by
  induction rows generalizing database relation values with
  | nil =>
      cases pure_eq_ok_iff.mp constants
      have same : database.withStore (database.state.store.holding insertion.table relation) =
          database := by
        rw [Store.holding_self found]
        rfl
      exact congrArg Except.ok same.symm
  | cons row rest ih =>
      obtain ⟨rowAllowed, restAllowed⟩ := List.forall_mem_cons.mp allowed
      obtain ⟨first, others, single, restConstant, rfl⟩ := values_cons constants
      have step := insertRows_single wellFormed found rowAllowed single
      rw [insertEach, List.foldlM_cons, List.foldlM_cons, map_bind, step]
      cases inserted : relation.insertOne insertion.columns insertion.rule
          first with
      | error error => rfl
      | ok changed =>
          rw [inserted] at step
          have valid := wellFormed.current.store.relations _ (Store.relation_eq_ok_iff.mp found)
          have sameSchema := (insertOne_wellFormed valid inserted).1
          have next := ih (insertRows_wellFormed wellFormed step) Store.relation_holding
            (fun other member => by rw [sameSchema]; exact restAllowed other member) restConstant
          have held : ∀ last : Relation, (database.withStore
                (database.state.store.holding insertion.table changed)).withStore
              ((database.state.store.holding insertion.table changed).holding
                insertion.table last) =
              database.withStore (database.state.store.holding insertion.table last) := by
            intro last
            rw [Store.holding_holding]
            rfl
          refine next.trans ?_
          simp only [ok_bind]
          exact congrArg (Except.map · _) (funext held)

/-- An INSERT of several rows succeeds if and only if one INSERT after another does, and leaves
the same rows then. The numbers that are taken from the counter have to leave it room. Where
clashes are ignored no number may be taken, since a row that is passed over uses up its own. -/
theorem insertRows_row_by_row (reached : database.Reachable)
    (present : (database.state.store.table? insertion.table).isSome = true)
    (constants : insertion.values database rows = .ok values) (nonempty : rows ≠ [])
    (even : ∀ row ∈ rows, ∀ other ∈ rows, row.length = other.length)
    (room : ∀ number ∈ insertion.numbersTaken database values, number < Int64.maxValue)
    (own : insertion.rule = .ignore → insertion.numbersTaken database values = []) :
    ((∃ together, database.insertRows insertion rows = .ok together) ↔
      ∃ last, database.insertEach insertion rows = .ok last) ∧
    ∀ together last, database.insertRows insertion rows = .ok together →
      database.insertEach insertion rows = .ok last →
      ∃ left, together.state.store.rows insertion.table = .ok left ∧
        last.state.store.rows insertion.table = .ok left := by
  have wellFormed := reached.wellFormed
  obtain ⟨relation, held⟩ := Option.isSome_iff_exists.mp (Option.isSome_map .. ▸ present)
  have found : database.state.store.relation insertion.table = .ok relation := by
    rw [Store.relation, held]
  have valid := wellFormed.current.store.relations _ (Store.relation_eq_ok_iff.mp found)
  simp only [RowInsertion.numbersTaken, found] at room own
  have together := insertRows_eq wellFormed found constants
  cases gate : database.insertionGate insertion relation.schema rows with
  | error error =>
      obtain ⟨row, rest, rfl⟩ := List.exists_cons_of_ne_nil nonempty
      obtain ⟨first, others, constant, -, rfl⟩ := values_cons constants
      have single : database.insertRows insertion [row] = .error error := by
        rw [insertRows_eq wellFormed found constant,
          ← insertionGate_single even List.mem_cons_self, gate]
        rfl
      have each : database.insertEach insertion (row :: rest) = .error error := by
        rw [insertEach, List.foldlM_cons, single]
        rfl
      rw [gate] at together
      simp [together, each, error_bind]
  | ok _ =>
      have each := insertEach_eq wellFormed found
        (fun row member => (insertionGate_single even member).symm.trans gate) constants
      have same := rows_insertAll valid room own
      rw [gate, ok_bind] at together
      rw [together, each]
      cases inserted : relation.insertAll insertion.columns insertion.rule values with
      | error error =>
          rw [inserted] at same
          cases ran : values.foldlM (Relation.insertOne insertion.columns insertion.rule)
              relation with
          | error other => simp [Except.map]
          | ok last =>
              rw [ran] at same
              cases same
      | ok written =>
          rw [inserted] at same
          obtain ⟨last, ran, left⟩ := map_eq_ok_iff.mp same.symm
          rw [ran]
          refine ⟨⟨fun _ => ⟨_, rfl⟩, fun _ => ⟨_, rfl⟩⟩, ?_⟩
          rintro - - ⟨⟩ ⟨⟩
          refine ⟨written.relation.rows, ?_, ?_⟩
          · exact congrArg (Except.map Relation.rows) Store.relation_holding
          · exact (congrArg (Except.map Relation.rows) Store.relation_holding).trans
              (congrArg Except.ok left)

/-- The first row makes the stored row with its mail give way; the second one the other stored row
and the first row itself. -/
theorem replaced_rows_row_by_row :
    let database := fromTexts ["CREATE TABLE users (name TEXT UNIQUE, mail TEXT UNIQUE)",
      "INSERT INTO users (name, mail) VALUES ('ann', 'a'), ('bob', 'b')"]
    let insertion : RowInsertion :=
      { caller := .local, resolution := some .replace, table := "users"
        columns := some ["name", "mail"], parameters := [.text "b"] }
    let rows : List (List Expression) :=
      [[.literal (.string "cid"), .literal (.string "a")],
        [.literal (.string "cid"), .parameter 0]]
    insertion.numbersTaken database [[.text "cid", .text "a"], [.text "cid", .text "b"]] = [3, 4] ∧
    (database.insertEach insertion rows).map (fun last =>
        (last.state.store.rows "users").map (List.map Row.values)) =
      .ok (.ok [[.integer 4, .text "cid", .text "b"]]) ∧
    ((∃ together, database.insertRows insertion rows = .ok together) ↔
      ∃ last, database.insertEach insertion rows = .ok last) ∧
    ∀ together last, database.insertRows insertion rows = .ok together →
      database.insertEach insertion rows = .ok last →
      ∃ left, together.state.store.rows insertion.table = .ok left ∧
        last.state.store.rows insertion.table = .ok left := by
  intro database insertion rows
  have reached : database.Reachable := fromTexts_reachable
  have present : (database.state.store.table? insertion.table).isSome = true := by decide +kernel
  have constants : insertion.values database rows =
      .ok [[.text "cid", .text "a"], [.text "cid", .text "b"]] := by decide +kernel
  have taken : insertion.numbersTaken database
      [[.text "cid", .text "a"], [.text "cid", .text "b"]] = [3, 4] := by decide +kernel
  have room : ∀ number ∈ insertion.numbersTaken database
      [[.text "cid", .text "a"], [.text "cid", .text "b"]], number < Int64.maxValue := by
    rw [taken]
    exact List.forall_mem_cons.mpr ⟨by decide, List.forall_mem_singleton.mpr (by decide)⟩
  have own : insertion.rule = .ignore → insertion.numbersTaken database
      [[.text "cid", .text "a"], [.text "cid", .text "b"]] = [] := by decide +kernel
  exact ⟨taken, by decide +kernel,
    insertRows_row_by_row reached present constants (by simp [rows]) (by simp [rows]) room own⟩

end Database

end Coffer
