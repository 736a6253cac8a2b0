import Mathlib.Data.List.Find
import Mathlib.Data.List.GetD
import Coffer.Proofs.LiveRows
import Coffer.Proofs.Reachable

namespace Coffer

/-! # Updates in order

An update looks at one row after another and keeps what it changes beside the table. The same
comes of a walk over the rows themselves, in which every row is compared with all others.
-/

open Coffer.Language (Resolution)

/-- A row of a table while an update goes over it, and whether the update has changed it. -/
structure Seat where
  tuple : Tuple
  updated : Bool
  deriving DecidableEq

/-- The value of an updated row at a position: that of the last assignment to it, computed from
the row as it was, in the form the column prefers. -/
def Table.assignedValue (table : Table) (assignments : List (Nat × Operand)) (tuple : Tuple)
    (position : Nat) (former : Value) : Value :=
  match table.columns[position]?,
    assignments.reverse.find? fun assignment => assignment.1 == position with
  | some column, some assignment => (assignment.2.value tuple).coerce column.type
  | _, _ => former

/-- The tuple of an updated row. -/
def Table.assigned (table : Table) (assignments : List (Nat × Operand)) (tuple : Tuple) : Tuple :=
  tuple.mapIdx (table.assignedValue assignments tuple)

/-- The other rows that are there. -/
def othersThan (position : Nat) (seats : List (Option Seat)) : List Seat :=
  (seats.eraseIdx position).filterMap id

/-- The rows that share no key with a tuple. -/
def Table.apartFrom (table : Table) (tuple : Tuple) (seats : List (Option Seat)) :
    List (Option Seat) :=
  seats.map fun seat => seat.filter fun other =>
    !table.uniqueColumns.any fun column => sharesKeyIn column tuple other.tuple

/-- Puts the new tuple of a row in its place, if it can stand there beside the other rows. -/
def Table.seated (table : Table) (resolution : Resolution) (seats : List (Option Seat))
    (position : Nat) (tuple : Tuple) : Except Error (List (Option Seat)) :=
  match table.uniqueColumns.find? fun column => (othersThan position seats).any fun other =>
    sharesKeyIn column tuple other.tuple with
  | none => .ok (seats.set position (some ⟨tuple, true⟩))
  | some column =>
    match resolution with
    | .ignore => .ok seats
    | .replace => .ok ((table.apartFrom tuple seats).set position (some ⟨tuple, true⟩))
    | .abort | .fail | .rollback =>
      .error (.notUnique table.name ((table.columnNames[column]?).getD ""))

/-- Updates the row at a position, if it is still there and passes as it was at first. -/
def Table.visit (table : Table) (filter : Option Predicate) (assignments : List (Nat × Operand))
    (resolution : Resolution) (seats : List (Option Seat)) (row : Nat × Tuple) :
    Except Error (List (Option Seat)) :=
  match seats[row.1]? with
  | some (some _) =>
    if passes filter row.2 then do
      let tuple := table.assigned assignments row.2
      table.checkTuple tuple
      table.seated resolution seats row.1 tuple
    else .ok seats
  | _ => .ok seats

/-- The rows at the start of an update. -/
def Relation.seats (relation : Relation) : List (Option Seat) :=
  relation.tuples.map fun tuple => some ⟨tuple, false⟩

/-- The rows that are left after an update went over all of them. -/
def Relation.updateInOrder (relation : Relation) (filter : Option Predicate)
    (assignments : List (Nat × Operand)) (resolution : Resolution) :
    Except Error (List Seat) :=
  (relation.numberedTuples.foldlM (relation.schema.visit filter assignments resolution)
    relation.seats).map fun seats => seats.filterMap id

namespace Staged

variable {staged after : Staged} {tuple : Tuple} {position place : Nat}
variable {columns positions : List Nat}

/-- The live row at a position, and whether it was staged. -/
def seat (staged : Staged) (position : Nat) : Option Seat :=
  (staged.liveTuple position).map fun tuple =>
    ⟨tuple, (staged.tuples.lookup position).isSome⟩

/-- The stored positions with the live rows in them. -/
def seats (staged : Staged) : List (Option Seat) :=
  (List.range staged.relation.rows.length).map staged.seat

theorem map_tuple_seat : (staged.seat place).map Seat.tuple = staged.liveTuple place := by
  rw [seat, Option.map_map]
  exact Option.map_id'

theorem lookup_foldl_remove :
    (positions.foldl remove staged).tuples.lookup place =
      if place ∈ positions then none else staged.tuples.lookup place := by
  induction positions generalizing staged with
  | nil => simp
  | cons position rest ih =>
      rw [List.foldl_cons, ih, tuples_remove, lookup_filter_ne]
      by_cases here : place = position <;> simp [here]

theorem seat_stage :
    (staged.stage position tuple).seat place =
      if place = position then some ⟨tuple, true⟩ else staged.seat place := by
  simp only [seat, liveTuple_stage, lookup_stage]
  by_cases here : place = position <;> simp [here]

theorem seat_displaceAll {own : Option Nat} (sound : staged.Sound)
    (unique : ∀ column ∈ columns, column ∈ staged.relation.schema.uniqueColumns) :
    (columns.foldl (fun staged column => staged.displace tuple own column) staged).seat place =
      (staged.seat place).filter fun other =>
        some place = own || !columns.any fun column => sharesKeyIn column tuple other.tuple := by
  obtain ⟨positions, run, -⟩ := displaceAll_cleared tuple own sound unique
  have live : (columns.foldl (fun staged column => staged.displace tuple own column)
        staged).liveTuple place = _ := liveTuple_displaceAll sound unique
  rw [run] at live ⊢
  have left := live.symm.trans liveTuple_foldl_remove
  simp only [seat, live, lookup_foldl_remove]
  cases stored : staged.liveTuple place with
  | none => rfl
  | some other =>
      rw [stored] at left
      cases stays : (some place = own || !columns.any fun column =>
          sharesKeyIn column tuple other : Bool) with
      | false => simp only [Option.filter_some, stays, Option.map_some]; rfl
      | true =>
          have kept : place ∉ positions := by
            intro gone
            simp [Option.filter_some, stays, gone] at left
          simp [Option.filter_some, stays, kept]

theorem getElem?_seats (staged : Staged) (within : place < staged.relation.rows.length) :
    staged.seats[place]? = some (staged.seat place) := by
  simp [seats, within]

/-- A row that is staged takes its place among the others. -/
theorem seats_stage :
    (staged.stage position tuple).seats = staged.seats.set position (some ⟨tuple, true⟩) := by
  refine List.ext_getElem? fun place => ?_
  simp only [seats, relation_stage, List.getElem?_map, List.getElem?_set, List.length_map,
    List.length_range]
  cases Nat.lt_or_ge place staged.relation.rows.length with
  | inl within =>
      by_cases here : position = place
      · subst here
        simp [within, seat_stage]
      · simp [within, here, seat_stage, Ne.symm here]
  | inr beyond =>
      have none : (List.range staged.relation.rows.length)[place]? = none := by simpa using beyond
      by_cases here : position = place
      · subst here
        simp [Nat.not_lt.mpr beyond]
      · simp [here, none]

theorem mem_othersThan_seats {other : Seat} :
    other ∈ othersThan position staged.seats ↔
      ∃ place, place ≠ position ∧ place < staged.relation.rows.length ∧
        staged.seat place = some other := by
  simp only [othersThan, List.mem_filterMap, List.mem_eraseIdx_iff_getElem?, id]
  constructor
  · rintro ⟨_, ⟨place, apart, found⟩, rfl⟩
    have within : place < staged.relation.rows.length := by
      simpa [seats] using (List.getElem?_eq_some_iff.mp found).1
    rw [staged.getElem?_seats within] at found
    exact ⟨place, apart, within, Option.some.inj found⟩
  · rintro ⟨place, apart, within, found⟩
    exact ⟨_, ⟨place, apart, (staged.getElem?_seats within).trans (congrArg some found)⟩, rfl⟩

/-- A row that is updated clashes in a column if another live row shares its key. -/
theorem isEmpty_clashes_own (sound : staged.Sound) (covering : staged.Covering)
    {column : Nat} (unique : column ∈ staged.relation.schema.uniqueColumns) :
    (staged.clashes tuple (some position) column).isEmpty =
      !((othersThan position staged.seats).any fun other =>
        sharesKeyIn column tuple other.tuple) := by
  rw [Bool.eq_iff_iff, List.isEmpty_iff, List.eq_nil_iff_forall_not_mem]
  simp only [mem_clashes_iff sound unique, Bool.not_eq_true', List.any_eq_false,
    mem_othersThan_seats, ne_eq, Option.some.injEq]
  constructor
  · rintro clear other ⟨place, apart, -, found⟩ shared
    refine clear place ⟨apart, other.tuple, ?_, shared⟩
    rw [← map_tuple_seat, found]
    rfl
  · rintro clear place ⟨apart, other, live, shared⟩
    have within : place < staged.relation.rows.length := by
      rw [← nextPosition_of_covering covering]
      exact liveTuple_isSome_lt sound live
    exact clear ⟨other, (staged.tuples.lookup place).isSome⟩
      ⟨place, apart, within, by rw [seat, live]; rfl⟩ shared

/-- The rows that share a key with an updated one give way to it. -/
theorem seats_displaceAll (sound : staged.Sound) :
    ((staged.relation.schema.uniqueColumns.foldl
        (fun staged column => staged.displace tuple (some position) column) staged).stage
          position tuple).seats =
      (staged.relation.schema.apartFrom tuple staged.seats).set position (some ⟨tuple, true⟩) := by
  obtain ⟨positions, run, -⟩ := displaceAll_cleared tuple (some position) sound
    fun column member => member
  have based := congrArg Staged.relation run
  rw [relation_foldl_remove] at based
  rw [seats_stage, seats, based, Table.apartFrom, seats, List.map_map]
  refine List.ext_getElem? fun place => ?_
  simp only [List.getElem?_set, List.getElem?_map, List.length_map]
  by_cases here : position = place
  · simp [here]
  · rw [if_neg here, if_neg here]
    cases Nat.lt_or_ge place staged.relation.rows.length with
    | inl within =>
        have apart : ¬ some place = some position := by simpa using Ne.symm here
        simp [within, seat_displaceAll sound fun column member => member, apart]
    | inr beyond =>
        have none : (List.range staged.relation.rows.length)[place]? = none := by simpa using beyond
        simp [none]

theorem getElem?_assignTuple {table : Table} {assignments : List (Nat × Operand)}
    {original changed : Tuple} :
    (assignments.foldl (fun changed assignment =>
        match table.columns[assignment.1]? with
        | some column =>
          changed.set assignment.1 ((assignment.2.value original).coerce column.type)
        | none => changed) changed)[position]? =
      changed[position]?.map (table.assignedValue assignments original position) := by
  induction assignments generalizing changed with
  | nil =>
      have same : table.assignedValue [] original position = id := by
        funext former
        simp only [Table.assignedValue, List.reverse_nil, List.find?_nil]
        cases table.columns[position]? <;> rfl
      simp [same]
  | cons assignment rest ih =>
      rw [List.foldl_cons, ih]
      by_cases here : assignment.1 = position
      · subst here
        cases located : table.columns[assignment.1]? with
        | none =>
            refine congrArg (Option.map · _) (funext fun former => ?_)
            simp only [Table.assignedValue, located]
        | some column =>
            simp only [List.getElem?_set_self', Option.map_map, Option.map_eq_map]
            refine congrArg (Option.map · _) (funext fun former => ?_)
            simp only [Function.comp_apply, Function.const_apply, Table.assignedValue, located,
              List.reverse_cons, List.find?_append, List.find?_singleton, beq_self_eq_true, if_true]
            cases rest.reverse.find? fun other => other.1 == assignment.1 <;> rfl
      · have kept : (match table.columns[assignment.1]? with
            | some column =>
              changed.set assignment.1 ((assignment.2.value original).coerce column.type)
            | none => changed)[position]? = changed[position]? := by
          cases table.columns[assignment.1]? with
          | none => rfl
          | some column => exact List.getElem?_set_ne here
        rw [kept]
        refine congrArg (Option.map · _) (funext fun former => ?_)
        simp [Table.assignedValue, List.find?_append, here]

/-- To assign one column after another is to look each column up. -/
theorem assignTuple_eq_assigned (table : Table) (assignments : List (Nat × Operand))
    (tuple : Tuple) : assignTuple table assignments tuple = table.assigned assignments tuple := by
  refine List.ext_getElem? fun position => getElem?_assignTuple.trans ?_
  rw [Table.assigned, List.getElem?_mapIdx]

/-- A stored row is there until it is removed. -/
theorem seat_eq_none_iff (sound : staged.Sound) (within : place < staged.relation.rows.length) :
    staged.seat place = none ↔ place ∈ staged.removed := by
  simp only [seat, liveTuple, Option.map_eq_none_iff]
  cases covered : staged.tuples.lookup place with
  | some tuple =>
      simp only [reduceCtorEq, false_iff]
      intro gone
      rw [sound.removedBare place gone] at covered
      cases covered
  | none => simp [within]

/-- What is accepted among the staged changes can be seated among the rows. -/
theorem seats_accept (position : Nat) (tuple : Tuple) (resolution : Resolution)
    (sound : staged.Sound) (covering : staged.Covering) :
    (staged.accept tuple (some position) resolution).map (fun accepted =>
        match accepted with
        | some cleared => (cleared.stage position tuple).seats
        | none => staged.seats) =
      staged.relation.schema.seated resolution staged.seats position tuple := by
  have seen : (staged.relation.schema.uniqueColumns.find? fun column =>
        !(staged.clashes tuple (some position) column).isEmpty) =
      staged.relation.schema.uniqueColumns.find? fun column =>
        (othersThan position staged.seats).any fun other =>
          sharesKeyIn column tuple other.tuple := by
    refine List.find?_congr fun column unique => ?_
    rw [isEmpty_clashes_own sound covering unique, Bool.not_not]
  rw [accept_eq sound, seen, Table.seated]
  cases staged.relation.schema.uniqueColumns.find? fun column =>
      (othersThan position staged.seats).any fun other =>
        sharesKeyIn column tuple other.tuple with
  | none => exact congrArg Except.ok seats_stage
  | some column =>
      cases resolution with
      | replace => exact congrArg Except.ok (seats_displaceAll sound)
      | _ => rfl

/-- One row of an update. -/
theorem seats_updateRow (filter : Option Predicate) (assignments : List (Nat × Operand))
    (resolution : Resolution) {row : Nat × Tuple} (sound : staged.Sound)
    (covering : staged.Covering) (within : row.1 < staged.relation.rows.length) :
    (updateRow filter assignments resolution staged row).map seats =
      staged.relation.schema.visit filter assignments resolution staged.seats row := by
  rw [updateRow, Table.visit, staged.getElem?_seats within]
  cases seated : staged.seat row.1 with
  | none =>
      have gone := (seat_eq_none_iff sound within).mp seated
      simp [gone, pure, Except.pure, Except.map]
  | some seat =>
      have stays : row.1 ∉ staged.removed := fun gone => by
        rw [(seat_eq_none_iff sound within).mpr gone] at seated
        cases seated
      cases passed : passes filter row.2 with
      | false => simp [pure, Except.pure, Except.map]
      | true =>
          simp only [List.contains_eq_mem, stays, decide_false, Bool.not_true, Bool.or_self,
            Bool.false_eq_true, if_false, if_true, assignTuple_eq_assigned]
          cases staged.relation.schema.checkTuple
              (staged.relation.schema.assigned assignments row.2) with
          | error error => rfl
          | ok _ =>
              have accepted := seats_accept row.1
                (staged.relation.schema.assigned assignments row.2) resolution sound covering
              rw [ok_bind, ok_bind, ← accepted]
              cases staged.accept (staged.relation.schema.assigned assignments row.2)
                  (some row.1) resolution with
              | error error => rfl
              | ok accepted => cases accepted <;> rfl

end Staged

section

variable (relation : Relation) (filter : Option Predicate) (assignments : List (Nat × Operand))
variable (resolution : Resolution)

theorem seats_start : (Staged.start relation).seats = relation.seats := by
  refine List.ext_getElem? fun place => ?_
  cases Nat.lt_or_ge place relation.rows.length with
  | inl within =>
      rw [(Staged.start relation).getElem?_seats within]
      simp [Staged.seat, Staged.liveTuple, Staged.start, Relation.seats, Relation.tuples, within]
  | inr beyond =>
      rw [List.getElem?_eq_none (by simpa [Staged.seats, Staged.start] using beyond),
        List.getElem?_eq_none (by simpa [Relation.seats, Relation.tuples] using beyond)]

/-- All rows of an update, one after another. -/
theorem seats_foldlM_updateRow {rows : List (Nat × Tuple)} {staged : Staged} (sound : staged.Sound)
    (covering : staged.Covering)
    (within : ∀ row ∈ rows, row.1 < staged.relation.rows.length) :
    (rows.foldlM (updateRow filter assignments resolution) staged).map Staged.seats =
      rows.foldlM (staged.relation.schema.visit filter assignments resolution) staged.seats := by
  induction rows generalizing staged with
  | nil => rfl
  | cons row rest ih =>
      obtain ⟨rowWithin, restWithin⟩ := List.forall_mem_cons.mp within
      have visited :=
        Staged.seats_updateRow filter assignments resolution sound covering rowWithin
      rw [List.foldlM_cons, List.foldlM_cons, ← visited]
      cases updated : updateRow filter assignments resolution staged row with
      | error error => rfl
      | ok next =>
          obtain ⟨same, nextSound, nextCovering⟩ :=
            updateRow_sound rowWithin sound covering updated
          simp only [ok_bind, Except.map] at ih ⊢
          rw [← same] at restWithin ⊢
          exact ih nextSound nextCovering restWithin

theorem filterMap_seats {staged : Staged} :
    staged.seats.filterMap id =
      (List.range staged.relation.rows.length).filterMap staged.seat := by
  rw [Staged.seats, List.filterMap_map]
  rfl

theorem tuples_seats {staged : Staged} (covering : staged.Covering) :
    (staged.seats.filterMap id).map Seat.tuple = staged.live := by
  rw [filterMap_seats, List.map_filterMap, Staged.live, Staged.nextPosition_of_covering covering]
  exact List.filterMap_congr fun place _ => Staged.map_tuple_seat

/-- The staged tuples are the updated rows that are left. -/
theorem countP_updated_seats {staged : Staged} (sound : staged.Sound)
    (covering : staged.Covering) :
    (staged.seats.filterMap id).countP Seat.updated = staged.tuples.length := by
  have listed : (List.range staged.relation.rows.length).filter
        (fun place => (staged.tuples.lookup place).isSome) = staged.tuples.map Prod.fst := by
    refine (List.pairwise_lt_range.filter _).eq_of_mem_iff
      (List.pairwise_map.mpr sound.ascending) fun place => ?_
    simp only [List.mem_filter, List.mem_range, List.mem_map]
    constructor
    · rintro ⟨-, staged⟩
      obtain ⟨tuple, found⟩ := Option.isSome_iff_exists.mp staged
      exact ⟨_, Staged.mem_of_lookup found, rfl⟩
    · rintro ⟨entry, member, rfl⟩
      exact ⟨covering entry member, by simp [Staged.lookup_of_mem sound.ascending member]⟩
  have counted := congrArg List.length listed
  rw [List.length_map, ← List.countP_eq_length_filter] at counted
  rw [← counted, filterMap_seats, List.countP_filterMap]
  refine List.countP_congr fun place _ => ?_
  simp only [Staged.seat, Staged.liveTuple]
  cases staged.tuples.lookup place with
  | some tuple => simp
  | none =>
      simp only
      split
      · simp
      · cases staged.relation.rows[place]? <;> simp

/-- Staging updates and going over the rows in order come to the same. -/
theorem updateAll_eq_updateInOrder (wellFormed : relation.WellFormed) :
    match relation.updateInOrder filter assignments resolution with
    | .error error => relation.updateAll filter assignments resolution = .error error
    | .ok left => ∃ after,
        relation.updateAll filter assignments resolution =
          .ok (after, left.countP Seat.updated) ∧
        after.schema = relation.schema ∧
        after.rows = left.map fun seat => relation.schema.row seat.tuple := by
  have within : ∀ row ∈ relation.numberedTuples,
      row.1 < (Staged.start relation).relation.rows.length := fun row member =>
    List.mem_range.mp (List.of_mem_zip member).1
  have covering : (Staged.start relation).Covering := by simp [Staged.Covering, Staged.start]
  have visited := seats_foldlM_updateRow filter assignments resolution
    (Staged.start_sound wellFormed) covering within
  rw [seats_start] at visited
  rw [Relation.updateInOrder, Relation.updateAll]
  change match ((relation.numberedTuples.foldlM
    ((Staged.start relation).relation.schema.visit filter assignments resolution)
    relation.seats).map fun seats => seats.filterMap id) with
    | .error error => _
    | .ok left => _
  rw [← visited]
  cases stages : relation.stageUpdate filter assignments resolution with
  | error error =>
      rw [Relation.stageUpdate] at stages
      rw [stages]
      rfl
  | ok staged =>
      obtain ⟨rfl, sound, covering⟩ := stageUpdate_sound wellFormed stages
      obtain ⟨after, written, sameSchema, rows⟩ := Staged.writeUpdate_live sound covering
      rw [Relation.stageUpdate] at stages
      rw [stages]
      refine ⟨after, ?_, sameSchema, ?_⟩
      · simp only [ok_bind, written, countP_updated_seats sound covering]
        rfl
      · rw [rows, ← tuples_seats covering, List.map_map]
        rfl

end

namespace Database

/-- An UPDATE does to a table what a walk over its rows in order does, which compares each updated
row with all others: it fails for the same reason, and then has no effect, or it leaves the same
rows, and tells how many of them were updated. -/
theorem update_in_order {database : Database} {name : String} {relation : Relation}
    (filter : Option Predicate) (assignments : List (Nat × Operand)) (resolution : Resolution)
    (reached : database.Reachable) (found : database.state.store.relation name = .ok relation) :
    match relation.updateInOrder filter assignments resolution with
    | .error error =>
      database.runPlan (.update name filter assignments resolution) = (database, .error error)
    | .ok left => ∃ after,
      database.runPlan (.update name filter assignments resolution) =
        (database.withStore (database.state.store.holding name after),
          .ok (.updated (left.countP Seat.updated))) ∧
      after.schema = relation.schema ∧
      after.rows = left.map fun seat => relation.schema.row seat.tuple := by
  have wellFormed := reached.wellFormed
  have present := Store.relation_eq_ok_iff.mp found
  have agrees := updateAll_eq_updateInOrder relation filter assignments resolution
    (wellFormed.current.store.relations _ present)
  rw [runPlan_eq wellFormed]
  simp only [Plan.run, found, ok_bind]
  cases walked : relation.updateInOrder filter assignments resolution with
  | error error =>
      simp only [walked] at agrees ⊢
      rw [agrees]
      rfl
  | ok left =>
      simp only [walked] at agrees ⊢
      obtain ⟨after, updated, sameSchema, rows⟩ := agrees
      have named : after.schema.name = name :=
        (congrArg Table.name sameSchema).trans (wellFormed.current.store.named _ present)
      refine ⟨after, ?_, sameSchema, rows⟩
      rw [updated, ← Store.replace_eq_holding named]
      rfl

/-- The second row makes the first one give way, and then the third one the second. -/
theorem replacing_update_in_order :
    let database := fromTexts ["CREATE TABLE users (name TEXT UNIQUE)",
      "INSERT INTO users (name) VALUES ('ann'), ('bob'), ('cid')"]
    let schema : Table :=
      { name := "users", indexes := []
        columns := [Table.implicitKey, { Column.plain "name" .text with unique := true }] }
    let relation := Relation.build schema
      [schema.row [.integer 1, .text "ann"], schema.row [.integer 2, .text "bob"],
        schema.row [.integer 3, .text "cid"]] 4
    let left : List Seat := [⟨[.integer 3, .text "ann"], true⟩]
    relation.updateInOrder none [(1, .constant (.text "ann"))] .replace = .ok left ∧
    ∃ after,
      database.runPlan (.update "users" none [(1, .constant (.text "ann"))] .replace) =
        (database.withStore (database.state.store.holding "users" after),
          .ok (.updated (left.countP Seat.updated))) ∧
      after.schema = relation.schema ∧
      after.rows = left.map fun seat => relation.schema.row seat.tuple := by
  intro database schema relation left
  have walked : relation.updateInOrder none [(1, .constant (.text "ann"))] .replace = .ok left := by
    decide +kernel
  have reached : database.Reachable := fromTexts_reachable
  have found : database.state.store.relation "users" = .ok relation := by decide +kernel
  have agrees := update_in_order none [(1, .constant (.text "ann"))] .replace reached found
  rw [walked] at agrees
  exact ⟨walked, agrees⟩

end Database

end Coffer
