import Coffer.Proofs.Numbering
import Coffer.Proofs.UpdateInOrder

namespace Coffer

/-! # What all rows uphold

Rows come into a table by insertions, and are changed by assignments. What holds of every row that
comes in, and goes on to hold when columns are assigned, holds of all rows of the table, whatever
becomes of clashes between them.
-/

open Coffer.Language (Resolution)

/-- What holds of every inserted tuple of a table, and goes on to hold of updated ones. -/
structure Table.Upholds (table : Table) (holds : Tuple → Prop) : Prop where
  inserted : ∀ nextId targets values,
    holds (numberTuple table.countedPosition? nextId (insertTuple table targets values)).1
  assigned : ∀ assignments tuple, holds tuple → holds (table.assigned assignments tuple)

section

variable {table : Table} {columns : Option (List String)} {resolution : Resolution}
variable {tuple other : Tuple} {live left : List Tuple} {tally after : Tally}
variable {values : List Value} {holds : Tuple → Prop} {relation changed : Relation}
variable {filter : Option Predicate} {assignments : List (Nat × Operand)}

/-! ## Insertions -/

theorem mem_of_admitted (admitted : table.admitted resolution live tuple = .ok left)
    (member : other ∈ left) : other ∈ live ∨ other = tuple := by
  rw [Table.admitted] at admitted
  split at admitted
  · cases admitted
    simpa using member
  · cases resolution with
    | ignore =>
        cases admitted
        exact .inl member
    | replace =>
        cases admitted
        rcases List.mem_append.mp member with kept | added
        · exact .inl (List.mem_of_mem_filter kept)
        · exact .inr (List.mem_singleton.mp added)
    | _ => cases admitted

theorem Table.Upholds.enter (upholds : table.Upholds holds)
    (before : ∀ tuple ∈ tally.live, holds tuple)
    (entered : table.enter columns resolution tally values = .ok after) :
    ∀ tuple ∈ after.live, holds tuple := by
  simp only [Table.enter, Table.numbered, bind_eq_ok_iff, pure_eq_ok_iff] at entered
  obtain ⟨numbered, ⟨targets, -, _, -, rfl⟩, left, admitted, rfl⟩ := entered
  intro tuple member
  rcases mem_of_admitted admitted member with former | rfl
  · exact before tuple former
  · exact upholds.inserted _ _ _

theorem Table.Upholds.insertAll {rows : List (List Value)} {written : Inserted}
    (upholds : relation.schema.Upholds holds) (wellFormed : relation.WellFormed)
    (before : ∀ tuple ∈ relation.tuples, holds tuple)
    (inserts : relation.insertAll columns resolution rows = .ok written) :
    ∀ tuple ∈ written.relation.tuples, holds tuple := by
  have same : (relation.insertAll columns resolution rows).map _ = _ := tuples_insertAll wellFormed
  rw [inserts] at same
  obtain ⟨state, run, live⟩ := map_eq_ok_iff.mp same.symm
  have started : ∀ tuple ∈ (Inserting.start relation).staged.live, holds tuple := by
    rwa [Inserting.start, Staged.live_start]
  rw [← show state.staged.live = written.relation.tuples from live]
  refine (foldlM_ok_invariant
    (fun state => state.Sound relation ∧ ∀ tuple ∈ state.staged.live, holds tuple)
    (fun state values next _ held step => ?_) ⟨start_sound wellFormed, started⟩ run).2
  refine ⟨insertValues_sound held.1 step, ?_⟩
  have entered := tally_insertValues columns resolution values held.1.sound
  rw [step, held.1.relation_eq] at entered
  exact upholds.enter held.2 entered.symm

/-! ## Updates -/

theorem mem_of_seated {seats after : List (Option Seat)} {position : Nat} {seat : Seat}
    (seated : table.seated resolution seats position tuple = .ok after)
    (member : some seat ∈ after) : some seat ∈ seats ∨ seat.tuple = tuple := by
  rw [Table.seated] at seated
  split at seated
  · cases seated
    rcases List.mem_or_eq_of_mem_set member with former | same
    · exact .inl former
    · cases same
      exact .inr rfl
  · cases resolution with
    | ignore =>
        cases seated
        exact .inl member
    | replace =>
        cases seated
        rcases List.mem_or_eq_of_mem_set member with kept | same
        · obtain ⟨former, listed, stays⟩ := List.mem_map.mp kept
          obtain ⟨rfl, -⟩ := Option.filter_eq_some_iff.mp stays
          exact .inl listed
        · cases same
          exact .inr rfl
    | _ => cases seated

theorem Table.Upholds.visit {seats after : List (Option Seat)} {row : Nat × Tuple}
    (upholds : table.Upholds holds) (former : holds row.2)
    (before : ∀ seat, some seat ∈ seats → holds seat.tuple)
    (visited : table.visit filter assignments resolution seats row = .ok after) :
    ∀ seat, some seat ∈ after → holds seat.tuple := by
  rw [Table.visit] at visited
  split at visited
  · split at visited
    · obtain ⟨_, -, seated⟩ := bind_eq_ok_iff.mp visited
      intro seat member
      rcases mem_of_seated seated member with kept | same
      · exact before seat kept
      · exact same ▸ upholds.assigned assignments row.2 former
    · cases visited
      exact before
  · cases visited
    exact before

theorem length_numberTuple {counted : Option Nat} {nextId : Int64} :
    (numberTuple counted nextId tuple).1.length = tuple.length := by
  cases counted with
  | none => rfl
  | some position =>
      simp only [numberTuple]
      cases tuple.getD position .null with
      | null => exact List.length_set
      | _ => rfl

/-- Tuples stay as long as the table is wide. -/
theorem Table.Upholds.with_length (upholds : table.Upholds holds) :
    table.Upholds fun tuple => tuple.length = table.columns.length ∧ holds tuple where
  inserted nextId targets values :=
    ⟨length_numberTuple.trans length_insertTuple, upholds.inserted nextId targets values⟩
  assigned assignments tuple held :=
    ⟨by rw [Table.assigned, List.length_mapIdx, held.1], upholds.assigned assignments tuple held.2⟩

theorem Table.Upholds.updateAll {count : Nat} (upholds : relation.schema.Upholds holds)
    (wellFormed : relation.WellFormed) (before : ∀ tuple ∈ relation.tuples, holds tuple)
    (updates : relation.updateAll filter assignments resolution = .ok (changed, count)) :
    ∀ tuple ∈ changed.tuples, holds tuple := by
  have agrees := updateAll_eq_updateInOrder relation filter assignments resolution wellFormed
  cases walked : relation.updateInOrder filter assignments resolution with
  | error error =>
      rw [walked, updates] at agrees
      cases agrees
  | ok left =>
      rw [walked, updates] at agrees
      obtain ⟨after, made, schema, rows⟩ := agrees
      cases made
      obtain ⟨seats, run, rfl⟩ := map_eq_ok_iff.mp walked
      have stored : ∀ tuple ∈ relation.tuples,
          tuple.length = relation.schema.columns.length ∧ holds tuple := fun tuple member => by
        refine ⟨?_, before tuple member⟩
        obtain ⟨row, -, rfl⟩ := List.mem_map.mp member
        exact Table.length_tuple
      have seated := foldlM_ok_invariant
        (fun seats => ∀ seat, some seat ∈ seats →
          seat.tuple.length = relation.schema.columns.length ∧ holds seat.tuple)
        (fun seats row next member held step =>
          upholds.with_length.visit (stored row.2 (List.of_mem_zip member).2) held step)
        (fun seat member => by
          obtain ⟨tuple, listed, same⟩ := List.mem_map.mp member
          cases same
          exact stored tuple listed) run
      intro tuple member
      rw [Relation.tuples, rows, schema, List.map_map] at member
      obtain ⟨seat, listed, rfl⟩ := List.mem_map.mp member
      obtain ⟨wide, held⟩ := seated seat (by simpa using listed)
      rwa [Function.comp_apply, Table.tuple_row wellFormed.distinct wide]

end

end Coffer
