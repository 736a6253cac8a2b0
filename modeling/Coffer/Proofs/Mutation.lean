import Coffer.Change.Insertion
import Coffer.Change.Update
import Coffer.Proofs.Result
import Coffer.Proofs.Staging

namespace Coffer

/-! # Changes of rows

What an insertion, an update or a deletion writes are the live rows that it staged, so the
relation is as well-formed after it as before.
-/

open Coffer.Language (Resolution)

theorem Table.lt_of_countedPosition? {table : Table} {position : Nat}
    (distinct : table.columnNames.Nodup) (counted : table.countedPosition? = some position) :
    position < table.columns.length := by
  obtain ⟨column, -, located⟩ := Option.bind_eq_some_iff.mp counted
  have named := (Table.position?_eq_some_iff distinct).mp located
  rw [← Table.length_columnNames]
  exact (List.getElem?_eq_some_iff.mp named).1

namespace Staged

variable {staged : Staged} {relation after : Relation} {tuples : List (Nat × Tuple)}
variable {position : Nat} {positions : List Nat}

theorem liveRow_holds (sound : staged.Sound) {row : Row}
    (live : staged.liveRow position = some row) : staged.relation.schema.Holds row := by
  simp only [liveRow] at live
  split at live
  · rename_i tuple found
    cases live
    exact Table.holds_row sound.base.distinct (sound.conforming _ (mem_of_lookup found))
  · split at live
    · cases live
    · exact sound.base.rowsHeld row (List.mem_of_getElem? live)

/-- A relation of live rows is well-formed. -/
theorem wellFormed_of_live (positions : List Nat) (sound : staged.Sound) (indexed : relation.Indexed)
    (schema : relation.schema = staged.relation.schema)
    (rows : relation.rows = positions.filterMap staged.liveRow) (distinct : positions.Nodup) :
    relation.WellFormed where
  schemaValid := by rw [schema]; exact sound.base.schemaValid
  indexColumns := by rw [schema]; exact sound.base.indexColumns
  rowsHeld := by
    rw [schema, rows]
    intro row member
    obtain ⟨position, -, live⟩ := List.mem_filterMap.mp member
    exact liveRow_holds sound live
  keysDistinct := by
    rw [schema, rows]
    intro column unique
    rw [Relation.Apart, List.pairwise_filterMap]
    refine distinct.imp fun {first second} apart row live other otherLive key rowKey otherKey => ?_
    refine apart (sound.keysDistinct column unique first second key ?_ ?_)
    · simp only [liveKey, live, Option.bind_some, rowKey]
    · simp only [liveKey, otherLive, Option.bind_some, otherKey]
  indexed := indexed

theorem rows_foldl_insert {schema : Table} {tuples : List Tuple} :
    (tuples.foldl (fun relation tuple => relation.insert (schema.row tuple)) relation).rows =
      relation.rows ++ tuples.map schema.row := by
  induction tuples generalizing relation with
  | nil => simp
  | cons tuple rest ih =>
      rw [List.foldl_cons, ih, List.map_cons, List.append_cons]
      rfl

theorem schema_foldl_insert {schema : Table} {tuples : List Tuple} :
    (tuples.foldl (fun relation tuple => relation.insert (schema.row tuple)) relation).schema =
      relation.schema := by
  induction tuples generalizing relation with
  | nil => rfl
  | cons tuple rest ih => rw [List.foldl_cons, ih]; rfl

theorem foldl_insert_indexed {schema : Table} {tuples : List Tuple} (indexed : relation.Indexed) :
    (tuples.foldl (fun relation tuple => relation.insert (schema.row tuple)) relation).Indexed := by
  induction tuples generalizing relation with
  | nil => exact indexed
  | cons tuple rest ih => exact ih (Relation.insert_indexed indexed)

/-- The staged tuples are the live rows at their own positions. -/
theorem map_row_eq_filterMap (sound : staged.Sound) :
    (staged.tuples.map Prod.snd).map staged.relation.schema.row =
      (staged.tuples.map Prod.fst).filterMap staged.liveRow := by
  rw [List.map_map, List.filterMap_map, ← List.filterMap_eq_map]
  apply List.filterMap_congr
  intro entry member
  simp [liveRow, lookup_of_mem sound.ascending member]

/-- New rows all stand behind the stored ones. -/
def Behind (staged : Staged) : Prop :=
  ∀ entry ∈ staged.tuples, staged.relation.rows.length ≤ entry.1

/-- Staged tuples all cover stored rows. -/
def Covering (staged : Staged) : Prop :=
  ∀ entry ∈ staged.tuples, entry.1 < staged.relation.rows.length

theorem kept_rows_eq_filterMap (behind : staged.Behind) :
    (staged.relation.delete staged.removed).rows =
      (List.range staged.relation.rows.length).filterMap staged.liveRow := by
  rw [Relation.rows_delete, Relation.rowsOutside_eq_filterMap, ← List.range_eq_range']
  apply List.filterMap_congr
  intro position member
  have unstaged : staged.tuples.lookup position = none := by
    rw [List.lookup_eq_none_iff]
    intro entry staged
    have above := behind entry staged
    have below := List.mem_range.mp member
    exact bne_iff_ne.mpr (by omega)
  simp [liveRow, unstaged]

theorem schema_writeInsertion :
    (writeInsertion staged).relation.schema = staged.relation.schema := by
  simp only [writeInsertion, schema_foldl_insert, Relation.schema_delete]

theorem rows_writeInsertion (sound : staged.Sound) (behind : staged.Behind) :
    (writeInsertion staged).relation.rows =
      (List.range staged.relation.rows.length ++ staged.tuples.map Prod.fst).filterMap
        staged.liveRow := by
  simp only [writeInsertion, rows_foldl_insert]
  rw [List.filterMap_append, kept_rows_eq_filterMap behind, map_row_eq_filterMap sound]

theorem writeInsertion_wellFormed (sound : staged.Sound) (behind : staged.Behind) :
    (writeInsertion staged).relation.WellFormed := by
  refine wellFormed_of_live (List.range staged.relation.rows.length ++
    staged.tuples.map Prod.fst) sound ?_ schema_writeInsertion
    (rows_writeInsertion sound behind) ?_
  · exact foldl_insert_indexed (Relation.delete_indexed sound.base.indexed)
  · refine List.nodup_append.mpr ⟨List.nodup_range, ?_, ?_⟩
    · refine List.pairwise_map.mpr (sound.ascending.imp ?_)
      exact Nat.ne_of_lt
    · intro position stored other staged same
      obtain ⟨entry, member, rfl⟩ := List.mem_map.mp staged
      have above := behind entry member
      have below := List.mem_range.mp stored
      omega

/-- Writing over stored rows cannot fail, and leaves a tuple at each place where one was. -/
theorem foldlM_update_exists (schema : Table)
    (ascending : tuples.Pairwise fun first second => first.1 < second.1)
    (covering : ∀ entry ∈ tuples, entry.1 < relation.rows.length) :
    ∃ after, tuples.foldlM
        (fun relation entry => relation.update entry.1 (schema.row entry.2)) relation = .ok after ∧
      after.schema = relation.schema ∧ (relation.Indexed → after.Indexed) ∧
      after.rows.length = relation.rows.length ∧
      ∀ position, after.rows[position]? =
        match tuples.lookup position with
        | some tuple => some (schema.row tuple)
        | none => relation.rows[position]? := by
  induction tuples generalizing relation with
  | nil => exact ⟨relation, rfl, rfl, id, rfl, fun _ => rfl⟩
  | cons entry rest ih =>
      obtain ⟨above, restAscending⟩ := List.pairwise_cons.mp ascending
      obtain ⟨within, restCovering⟩ := List.forall_mem_cons.mp covering
      obtain ⟨next, updated⟩ := Relation.update_exists (schema.row entry.2) within
      have nextRows := Relation.rows_update updated
      have nextLength : next.rows.length = relation.rows.length := by
        rw [nextRows, List.length_set]
      have restWithin : ∀ entry ∈ rest, entry.1 < next.rows.length := by rwa [nextLength]
      obtain ⟨after, run, sameSchema, indexed, sameLength, rows⟩ := ih restAscending restWithin
      refine ⟨after, ?_, ?_, ?_, ?_, ?_⟩
      · rw [List.foldlM_cons, updated]
        exact run
      · rw [sameSchema, Relation.schema_update updated]
      · exact fun before => indexed (Relation.update_indexed before updated)
      · rw [sameLength, nextLength]
      · intro position
        rw [rows, nextRows, lookup_first]
        by_cases here : position = entry.1
        · have unstaged : rest.lookup position = none := by
            rw [List.lookup_eq_none_iff]
            intro other member
            have before := above other member
            exact bne_iff_ne.mpr (by omega)
          subst here
          simp [unstaged, within]
        · simp only [if_neg here, List.getElem?_set_ne (Ne.symm here)]

/-- Updated rows are written, and what is left are the live rows, which is well-formed. -/
theorem writeUpdate_exists (sound : staged.Sound) (covering : staged.Covering) :
    ∃ after, writeUpdate staged = .ok after ∧ after.schema = staged.relation.schema ∧
      after.rows = (List.range staged.relation.rows.length).filterMap staged.liveRow ∧
      after.WellFormed := by
  obtain ⟨written, run, sameSchema, indexed, sameLength, rows⟩ :=
    foldlM_update_exists staged.relation.schema sound.ascending covering
  have left : (written.delete staged.removed).rows =
      (List.range staged.relation.rows.length).filterMap staged.liveRow := by
    rw [Relation.rows_delete, Relation.rowsOutside_eq_filterMap, ← List.range_eq_range', sameLength]
    apply List.filterMap_congr
    intro position _
    rw [Nat.sub_zero, rows, liveRow]
    by_cases gone : position ∈ staged.removed
    · simp [gone, sound.removedBare position gone]
    · cases staged.tuples.lookup position <;> simp [gone]
  refine ⟨written.delete staged.removed, ?_, ?_, left, ?_⟩
  · simp only [writeUpdate, bind_eq_ok_iff]
    exact ⟨written, run, rfl⟩
  · rw [Relation.schema_delete, sameSchema]
  · refine wellFormed_of_live (List.range staged.relation.rows.length) sound
      (Relation.delete_indexed (indexed sound.base.indexed)) ?_ left List.nodup_range
    rw [Relation.schema_delete, sameSchema]

end Staged

/-- An insertion on its way: nothing is staged among the stored rows. -/
structure Inserting.Sound (state : Inserting) (relation : Relation) : Prop where
  relation_eq : state.staged.relation = relation
  sound : state.staged.Sound
  behind : state.staged.Behind

section

variable {relation : Relation} {columns : Option (List String)} {resolution : Resolution}
variable {filter : Option Predicate} {assignments : List (Nat × Operand)}

theorem insertValues_sound {state after : Inserting} {values : List Value}
    (sound : state.Sound relation)
    (inserted : insertValues columns resolution state values = .ok after) :
    after.Sound relation := by
  obtain ⟨same, sound, behind⟩ := sound
  simp only [insertValues, bind_eq_ok_iff] at inserted
  obtain ⟨targets, -, _, checked, accepted, accepts, finished⟩ := inserted
  cases accepted with
  | none =>
      cases pure_eq_ok_iff.mp finished
      exact ⟨same, sound, behind⟩
  | some cleared =>
      cases pure_eq_ok_iff.mp finished
      have room := Staged.accept_cleared sound accepts
      refine ⟨?_, ?_, ?_⟩
      · rw [Staged.append, Staged.relation_stage, room.relation, same]
      · refine Staged.append_sound (room.sound sound) ?_ ?_
        · rw [room.relation]
          exact checked
        · rw [room.relation]
          exact room.clear
      · intro entry member
        rw [Staged.append, Staged.relation_stage]
        rcases Staged.mem_tuples_stage member with rfl | former
        · exact Staged.le_nextPosition
        · rw [room.relation]
          exact behind entry (room.mem_tuples former)

theorem stageInsertion_sound {rows : List (List Value)} {staged : Staged}
    (wellFormed : relation.WellFormed)
    (stages : relation.stageInsertion columns resolution rows = .ok staged) :
    staged.relation = relation ∧ staged.Sound ∧ staged.Behind := by
  simp only [Relation.stageInsertion, bind_eq_ok_iff, pure_eq_ok_iff] at stages
  obtain ⟨finished, run, rfl⟩ := stages
  have started : Inserting.Sound ⟨.start relation, relation.nextId⟩ relation :=
    ⟨rfl, Staged.start_sound wellFormed, by simp [Staged.Behind, Staged.start]⟩
  obtain ⟨same, sound, behind⟩ := foldlM_ok_invariant
    (fun state => Inserting.Sound state relation) (fun state values after _ holds step => insertValues_sound holds step) started run
  exact ⟨same, sound, behind⟩

theorem insertAll_wellFormed {rows : List (List Value)} {inserted : Inserted}
    (wellFormed : relation.WellFormed)
    (inserts : relation.insertAll columns resolution rows = .ok inserted) :
    inserted.relation.schema = relation.schema ∧ inserted.relation.WellFormed := by
  simp only [Relation.insertAll, bind_eq_ok_iff, pure_eq_ok_iff] at inserts
  obtain ⟨staged, stages, rfl⟩ := inserts
  obtain ⟨same, sound, behind⟩ := stageInsertion_sound wellFormed stages
  exact ⟨by rw [Staged.schema_writeInsertion, same], Staged.writeInsertion_wellFormed sound behind⟩

theorem updateRow_sound {staged after : Staged} {row : Nat × Tuple}
    (within : row.1 < staged.relation.rows.length) (sound : staged.Sound)
    (covering : staged.Covering)
    (updated : updateRow filter assignments resolution staged row = .ok after) :
    after.relation = staged.relation ∧ after.Sound ∧ after.Covering := by
  simp only [updateRow] at updated
  split at updated
  · cases pure_eq_ok_iff.mp updated
    exact ⟨rfl, sound, covering⟩
  · rename_i passed
    have stays : row.1 ∉ staged.removed := by
      intro gone
      simp [gone] at passed
    simp only [bind_eq_ok_iff] at updated
    obtain ⟨_, checked, accepted, accepts, finished⟩ := updated
    cases accepted with
    | none =>
        cases pure_eq_ok_iff.mp finished
        exact ⟨rfl, sound, covering⟩
    | some cleared =>
        cases pure_eq_ok_iff.mp finished
        have room := Staged.accept_cleared sound accepts
        refine ⟨?_, ?_, ?_⟩
        · rw [Staged.relation_stage, room.relation]
        · refine Staged.stage_sound (room.sound sound) (room.not_removed rfl stays) ?_ ?_
          · rw [room.relation]
            exact checked
          · rw [room.relation]
            exact room.clear
        · intro entry member
          rw [Staged.relation_stage, room.relation]
          rcases Staged.mem_tuples_stage member with rfl | former
          · exact within
          · exact covering entry (room.mem_tuples former)

theorem stageUpdate_sound {staged : Staged} (wellFormed : relation.WellFormed)
    (stages : relation.stageUpdate filter assignments resolution = .ok staged) :
    staged.relation = relation ∧ staged.Sound ∧ staged.Covering := by
  rw [Relation.stageUpdate] at stages
  refine foldlM_ok_invariant
    (fun staged => staged.relation = relation ∧ staged.Sound ∧ staged.Covering)
    ?_ ⟨rfl, Staged.start_sound wellFormed, by simp [Staged.Covering, Staged.start]⟩ stages
  rintro state row after member ⟨rfl, sound, covering⟩ step
  have within : row.1 < state.relation.rows.length :=
    List.mem_range.mp (List.of_mem_zip member).1
  exact updateRow_sound within sound covering step

theorem updateAll_wellFormed {after : Relation} {count : Nat} (wellFormed : relation.WellFormed)
    (updated : relation.updateAll filter assignments resolution = .ok (after, count)) :
    after.schema = relation.schema ∧ after.WellFormed := by
  simp only [Relation.updateAll, bind_eq_ok_iff, pure_eq_ok_iff, Prod.mk.injEq] at updated
  obtain ⟨staged, stages, written, writes, rfl, -⟩ := updated
  obtain ⟨rfl, sound, covering⟩ := stageUpdate_sound wellFormed stages
  obtain ⟨found, writesFound, sameSchema, -, valid⟩ := Staged.writeUpdate_exists sound covering
  cases writes.symm.trans writesFound
  exact ⟨sameSchema, valid⟩

/-- Rows that go take nothing from what holds of those that stay. -/
theorem delete_wellFormed {positions : List Nat} (wellFormed : relation.WellFormed) :
    (relation.delete positions).WellFormed := by
  have fewer : (relation.delete positions).rows.Sublist relation.rows := by
    rw [Relation.rows_delete]
    exact Relation.rowsOutside_sublist 0 relation.rows
  exact {
    schemaValid := by rw [Relation.schema_delete]; exact wellFormed.schemaValid
    indexColumns := by rw [Relation.schema_delete]; exact wellFormed.indexColumns
    rowsHeld := by
      rw [Relation.schema_delete]
      exact fun row member => wellFormed.rowsHeld row (fewer.subset member)
    keysDistinct := by
      rw [Relation.schema_delete]
      exact fun column unique => (wellFormed.keysDistinct column unique).sublist fewer
    indexed := Relation.delete_indexed wellFormed.indexed }

end

end Coffer
