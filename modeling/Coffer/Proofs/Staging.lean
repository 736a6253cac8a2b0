import Coffer.Change.Staging
import Coffer.Proofs.Relation

namespace Coffer.Staged

/-! # Staged changes

A statement works on the live rows. Their keys stay apart in the unique columns with every
change that is staged, and what is written in the end are the live rows.
-/

open Coffer.Language (Resolution)

variable {staged after : Staged} {tuple changed : Tuple} {tuples : List (Nat × Tuple)}
variable {own : Option Nat} {column position place : Nat} {key : Key} {positions : List Nat}

theorem lookup_first {entry : Nat × Tuple} :
    (entry :: tuples).lookup place =
      if place = entry.1 then some entry.2 else tuples.lookup place := by
  rw [List.lookup_cons]
  by_cases same : place = entry.1
  · simp [same]
  · have differs : (place == entry.1) = false := by simpa using same
    simp [same, differs]

theorem lookup_filter_ne :
    (tuples.filter fun entry => entry.1 != position).lookup place =
      if place = position then none else tuples.lookup place := by
  induction tuples with
  | nil => simp
  | cons entry rest ih =>
      rw [List.filter_cons]
      by_cases here : entry.1 = position
      · by_cases same : place = position
        · simpa [here, same] using ih
        · simpa [here, same, lookup_first] using ih
      · by_cases same : place = position
        · simpa [here, same, lookup_first, Ne.symm here] using ih
        · simp only [if_neg same] at ih
          simp [here, same, lookup_first, ih]

theorem lookup_placeTuple :
    (placeTuple position tuple tuples).lookup place =
      if place = position then some tuple else tuples.lookup place := by
  induction tuples with
  | nil => simp [placeTuple, lookup_first]
  | cons entry rest ih =>
      simp only [placeTuple]
      split
      · simp only [lookup_first]
      · split
        · rename_i covered
          by_cases same : place = position
          · simp [same]
          · have different : ¬ place = entry.1 := covered ▸ same
            simp [lookup_first, same, different]
        · rename_i different
          by_cases same : place = entry.1
          · simp [lookup_first, same, Ne.symm different]
          · simp [lookup_first, same, ih]

theorem mem_placeTuple {entry : Nat × Tuple}
    (member : entry ∈ placeTuple position tuple tuples) :
    entry = (position, tuple) ∨ entry ∈ tuples := by
  induction tuples with
  | nil => simpa [placeTuple] using member
  | cons first rest ih =>
      simp only [placeTuple] at member
      split at member
      · simpa using member
      · split at member
        · rcases List.mem_cons.mp member with same | member
          · exact .inl same
          · exact .inr (List.mem_cons_of_mem _ member)
        · rcases List.mem_cons.mp member with same | member
          · exact .inr (same ▸ List.mem_cons_self)
          · exact (ih member).imp id (List.mem_cons_of_mem _)

theorem placeTuple_ascending
    (ascending : tuples.Pairwise fun first second => first.1 < second.1) :
    (placeTuple position tuple tuples).Pairwise fun first second => first.1 < second.1 := by
  induction tuples with
  | nil => simp [placeTuple]
  | cons first rest ih =>
      obtain ⟨above, restAscending⟩ := List.pairwise_cons.mp ascending
      simp only [placeTuple]
      split
      · rename_i before
        refine List.pairwise_cons.mpr ⟨fun entry member => ?_, ascending⟩
        rcases List.mem_cons.mp member with rfl | member
        · exact before
        · exact Nat.lt_trans before (above entry member)
      · split
        · rename_i same
          exact List.pairwise_cons.mpr ⟨fun entry member => same ▸ above entry member, restAscending⟩
        · refine List.pairwise_cons.mpr ⟨fun entry member => ?_, ih restAscending⟩
          rcases mem_placeTuple member with rfl | member
          · change first.1 < position
            omega
          · exact above entry member

/-- The live row at a position: the one staged there, or the stored one. -/
def liveRow (staged : Staged) (position : Nat) : Option Row :=
  match staged.tuples.lookup position with
  | some tuple => some (staged.relation.schema.row tuple)
  | none => if position ∈ staged.removed then none else staged.relation.rows[position]?

/-- The key of the live row at a position in a column. -/
def liveKey (staged : Staged) (column position : Nat) : Option Key :=
  (staged.liveRow position).bind fun row => Relation.keyOf staged.relation.schema row column

/-- The key of the tuple staged at a position in a column. -/
def stagedKey (staged : Staged) (column position : Nat) : Option Key :=
  (staged.tuples.lookup position).bind fun tuple => (tuple.getD column .null).key?

/-- Staged changes that may be written: the rows that they leave can stand together. -/
structure Sound (staged : Staged) : Prop where
  base : staged.relation.WellFormed
  ascending : staged.tuples.Pairwise fun first second => first.1 < second.1
  conforming : ∀ entry ∈ staged.tuples, staged.relation.schema.checkTuple entry.2 = .ok ()
  removedStored : ∀ position ∈ staged.removed, position < staged.relation.rows.length
  removedBare : ∀ position ∈ staged.removed, staged.tuples.lookup position = none
  reflected : Reflected staged.keys staged.relation.schema.uniqueColumns staged.stagedKey
  keysDistinct : ∀ column ∈ staged.relation.schema.uniqueColumns, ∀ first second key,
    staged.liveKey column first = some key → staged.liveKey column second = some key →
    first = second

theorem mem_of_lookup (found : tuples.lookup position = some tuple) :
    (position, tuple) ∈ tuples := by
  obtain ⟨before, behind, split, -⟩ := List.lookup_eq_some_iff.mp found
  simp [split]

theorem lookup_of_mem (ascending : tuples.Pairwise fun first second => first.1 < second.1)
    (member : (position, tuple) ∈ tuples) : tuples.lookup position = some tuple := by
  induction tuples with
  | nil => simp at member
  | cons entry rest ih =>
      obtain ⟨above, restAscending⟩ := List.pairwise_cons.mp ascending
      rcases List.mem_cons.mp member with rfl | member
      · simp
      · have before := above _ member
        have differs : (position == entry.1) = false := by simpa using Nat.ne_of_gt before
        rw [List.lookup_cons, differs]
        exact ih restAscending member

/-- A tuple that passes the check has in its row the keys that it has itself. -/
theorem keyOf_row {schema : Table} (distinct : schema.columnNames.Nodup)
    (checked : schema.checkTuple tuple = .ok ()) :
    Relation.keyOf schema (schema.row tuple) column = (tuple.getD column .null).key? := by
  rw [Relation.keyOf, Table.tuple_row distinct (Table.length_of_checkTuple checked),
    List.getD_eq_getElem?_getD]
  cases tuple[column]? <;> rfl

theorem start_sound {relation : Relation} (wellFormed : relation.WellFormed) :
    (start relation).Sound where
  base := wellFormed
  ascending := .nil
  conforming := by simp [start]
  removedStored := by simp [start]
  removedBare := by simp [start]
  reflected := (Reflected.initial _).congr fun column _ position => by simp [stagedKey, start]
  keysDistinct := fun column unique first second key firstKey secondKey =>
    wellFormed.keyAt_injective unique firstKey secondKey

theorem liveKey_of_staged (sound : staged.Sound)
    (found : staged.tuples.lookup position = some tuple) :
    staged.liveKey column position = (tuple.getD column .null).key? := by
  rw [liveKey, liveRow, found]
  exact keyOf_row sound.base.distinct (sound.conforming _ (mem_of_lookup found))

theorem covers_eq_false_iff :
    staged.covers position = false ↔ staged.tuples.lookup position = none := by
  simp only [covers, List.any_eq_false, List.lookup_eq_none_iff, beq_iff_eq, bne_iff_ne]
  exact forall₂_congr fun entry _ => ne_comm

theorem untouched_eq_true_iff :
    staged.untouched position = true ↔
      position ∉ staged.removed ∧ staged.tuples.lookup position = none := by
  simp only [untouched, Bool.and_eq_true, Bool.not_eq_true', covers_eq_false_iff,
    List.contains_eq_mem, decide_eq_false_iff_not]

/-- A clash is a live row in another place that has the key of the tuple. -/
theorem mem_clashes (sound : staged.Sound)
    (unique : column ∈ staged.relation.schema.uniqueColumns) :
    position ∈ staged.clashes tuple own column ↔
      some position ≠ own ∧
        ∃ key, (tuple.getD column .null).key? = some key ∧
          staged.liveKey column position = some key := by
  obtain ⟨index, listed, reflects⟩ := sound.reflected.lookup unique
  cases tupleKey : (tuple.getD column .null).key? with
  | none => simp only [clashes, tupleKey, List.not_mem_nil, reduceCtorEq, false_and, exists_false,
      and_false]
  | some key =>
      simp only [clashes, tupleKey, listed, List.mem_filter, List.mem_append,
        Relation.mem_positionsOf sound.base.indexed, reflects.mem_positions, bne_iff_ne,
        untouched_eq_true_iff, Option.some.injEq, exists_eq_left']
      rw [and_comm]
      apply and_congr_right
      intro _
      cases found : staged.tuples.lookup position with
      | none =>
          simp only [stagedKey, found, Option.bind_none, reduceCtorEq, or_false, liveKey, liveRow,
            and_true]
          by_cases gone : position ∈ staged.removed
          · simp [gone]
          · simp [gone, Relation.keyAt, Relation.keyAmong]
      | some other =>
          simp [liveKey_of_staged sound found, stagedKey, found]

theorem relation_unstage : (staged.unstage position).relation = staged.relation := by
  simp only [unstage]
  split <;> rfl

theorem removed_unstage : (staged.unstage position).removed = staged.removed := by
  simp only [unstage]
  split <;> rfl

theorem tuples_unstage :
    (staged.unstage position).tuples = staged.tuples.filter fun entry => entry.1 != position := by
  simp only [unstage]
  split
  · rename_i missing
    have kept : ∀ entry ∈ staged.tuples, (entry.1 != position) = true := by
      intro entry member
      have differs := List.lookup_eq_none_iff.mp missing entry member
      exact bne_iff_ne.mpr (bne_iff_ne.mp differs).symm
    exact (List.filter_eq_self.mpr kept).symm
  · rfl

theorem lookup_unstage :
    (staged.unstage position).tuples.lookup place =
      if place = position then none else staged.tuples.lookup place := by
  rw [tuples_unstage, lookup_filter_ne]

theorem unstage_reflected
    (reflected : Reflected staged.keys staged.relation.schema.uniqueColumns staged.stagedKey) :
    Reflected (staged.unstage position).keys staged.relation.schema.uniqueColumns
      (staged.unstage position).stagedKey := by
  have kept : ∀ column place, place ≠ position →
      (staged.unstage position).stagedKey column place = staged.stagedKey column place := by
    intro column place different
    simp only [stagedKey, lookup_unstage, if_neg different]
  have vacated : ∀ column, (staged.unstage position).stagedKey column position = none := by
    intro column
    simp only [stagedKey, lookup_unstage, if_true, Option.bind_none]
  cases found : staged.tuples.lookup position with
  | none =>
      have same : staged.unstage position = staged := by simp only [unstage, found]
      rwa [same]
  | some tuple =>
      have keys : (staged.unstage position).keys =
          changeKeys (fun index key => index.remove key position) tuple staged.keys := by
        simp only [unstage, found]
      rw [keys]
      exact reflected.remove (fun column => (tuple.getD column .null).key?)
        (fun column => by simp [stagedKey, found]) vacated kept

theorem relation_remove : (staged.remove position).relation = staged.relation := by
  simp only [remove]
  split <;> exact relation_unstage

theorem tuples_remove :
    (staged.remove position).tuples = staged.tuples.filter fun entry => entry.1 != position := by
  simp only [remove]
  split <;> exact tuples_unstage

theorem keys_remove : (staged.remove position).keys = (staged.unstage position).keys := by
  simp only [remove]
  split <;> rfl

theorem mem_removed_remove :
    place ∈ (staged.remove position).removed ↔
      place ∈ staged.removed ∨ place = position ∧ position < staged.relation.rows.length := by
  simp only [remove, relation_unstage]
  split
  · rename_i within
    simp [KeyIndex.mem_insertPosition, removed_unstage, within, or_comm]
  · rename_i beyond
    simp [removed_unstage, beyond]

/-- Removing leaves a gap, whether the row was stored or staged. -/
theorem liveRow_remove :
    (staged.remove position).liveRow place =
      if place = position then none else staged.liveRow place := by
  simp only [liveRow, relation_remove, tuples_remove, lookup_filter_ne, mem_removed_remove]
  by_cases here : place = position
  · subst here
    by_cases within : place < staged.relation.rows.length
    · simp [within]
    · simp [List.getElem?_eq_none (Nat.le_of_not_lt within)]
  · simp [here]

theorem liveKey_remove :
    (staged.remove position).liveKey column place =
      if place = position then none else staged.liveKey column place := by
  simp only [liveKey, liveRow_remove, relation_remove]
  split <;> rfl

theorem remove_sound (sound : staged.Sound) : (staged.remove position).Sound where
  base := by rw [relation_remove]; exact sound.base
  ascending := by rw [tuples_remove]; exact sound.ascending.filter _
  conforming := by
    rw [tuples_remove, relation_remove]
    exact fun entry member => sound.conforming entry (List.mem_filter.mp member).1
  removedStored := by
    intro place member
    rw [relation_remove]
    rcases mem_removed_remove.mp member with former | ⟨rfl, within⟩
    · exact sound.removedStored place former
    · exact within
  removedBare := by
    intro place member
    rw [tuples_remove, lookup_filter_ne]
    split
    · rfl
    · rename_i different
      rcases mem_removed_remove.mp member with former | ⟨same, -⟩
      · exact sound.removedBare place former
      · exact absurd same different
  reflected := by
    have same : (staged.remove position).stagedKey = (staged.unstage position).stagedKey := by
      funext column place
      simp only [stagedKey, tuples_remove, tuples_unstage]
    rw [keys_remove, relation_remove, same]
    exact unstage_reflected sound.reflected
  keysDistinct := by
    intro column unique first second key firstKey secondKey
    rw [relation_remove] at unique
    rw [liveKey_remove] at firstKey secondKey
    split at firstKey <;> split at secondKey
    · cases firstKey
    · cases firstKey
    · cases secondKey
    · exact sound.keysDistinct column unique first second key firstKey secondKey

theorem relation_stage : (staged.stage position tuple).relation = staged.relation :=
  relation_unstage

theorem removed_stage : (staged.stage position tuple).removed = staged.removed :=
  removed_unstage

theorem lookup_stage :
    (staged.stage position tuple).tuples.lookup place =
      if place = position then some tuple else staged.tuples.lookup place := by
  change (placeTuple position tuple (staged.unstage position).tuples).lookup place = _
  rw [lookup_placeTuple, lookup_unstage]
  split <;> rfl

theorem mem_tuples_stage {entry : Nat × Tuple}
    (member : entry ∈ (staged.stage position tuple).tuples) :
    entry = (position, tuple) ∨ entry ∈ staged.tuples := by
  rcases mem_placeTuple member with same | member
  · exact .inl same
  · rw [tuples_unstage] at member
    exact .inr (List.mem_filter.mp member).1

theorem liveRow_stage :
    (staged.stage position tuple).liveRow place =
      if place = position then some (staged.relation.schema.row tuple)
      else staged.liveRow place := by
  simp only [liveRow, relation_stage, lookup_stage, removed_stage]
  by_cases here : place = position <;> simp [here]

/-- A tuple may be staged where no row was removed, once nothing clashes with it. -/
theorem stage_sound (sound : staged.Sound) (stays : position ∉ staged.removed)
    (checked : staged.relation.schema.checkTuple tuple = .ok ())
    (clear : ∀ column ∈ staged.relation.schema.uniqueColumns,
      staged.clashes tuple (some position) column = []) :
    (staged.stage position tuple).Sound := by
  have keyOf : ∀ column, Relation.keyOf staged.relation.schema
      (staged.relation.schema.row tuple) column = (tuple.getD column .null).key? :=
    fun column => keyOf_row sound.base.distinct checked
  have alone : ∀ column ∈ staged.relation.schema.uniqueColumns, ∀ place key,
      place ≠ position → (tuple.getD column .null).key? = some key →
      staged.liveKey column place ≠ some key := by
    intro column unique place key different tupleKey taken
    have clash : place ∈ staged.clashes tuple (some position) column :=
      (mem_clashes sound unique).mpr ⟨by simpa using different, key, tupleKey, taken⟩
    rw [clear column unique] at clash
    exact absurd clash (by simp)
  have liveKey : ∀ column place, (staged.stage position tuple).liveKey column place =
      if place = position then (tuple.getD column .null).key?
      else staged.liveKey column place := by
    intro column place
    simp only [Staged.liveKey, liveRow_stage, relation_stage]
    split
    · exact keyOf column
    · rfl
  exact {
    base := by rw [relation_stage]; exact sound.base
    ascending := by
      refine placeTuple_ascending ?_
      rw [tuples_unstage]
      exact sound.ascending.filter _
    conforming := by
      intro entry member
      rw [relation_stage]
      rcases mem_tuples_stage member with rfl | former
      · exact checked
      · exact sound.conforming entry former
    removedStored := by
      rw [removed_stage, relation_stage]
      exact sound.removedStored
    removedBare := by
      intro place member
      rw [removed_stage] at member
      have different : place ≠ position := fun same => stays (same ▸ member)
      rw [lookup_stage, if_neg different]
      exact sound.removedBare place member
    reflected := by
      rw [relation_stage]
      refine (unstage_reflected sound.reflected).add
        (fun column => (tuple.getD column .null).key?) ?_ ?_ ?_
      · intro column
        simp only [stagedKey, lookup_unstage, if_true, Option.bind_none]
      · intro column
        simp only [stagedKey, lookup_stage, if_true, Option.bind_some]
      · intro column place different
        simp only [stagedKey, lookup_stage, lookup_unstage, if_neg different]
    keysDistinct := by
      intro column unique first second key firstKey secondKey
      rw [relation_stage] at unique
      rw [liveKey] at firstKey secondKey
      split at firstKey <;> split at secondKey
      · rename_i firstHere secondHere
        exact firstHere.trans secondHere.symm
      · rename_i different
        exact absurd secondKey (alone column unique second key different firstKey)
      · rename_i different _
        exact absurd firstKey (alone column unique first key different secondKey)
      · exact sound.keysDistinct column unique first second key firstKey secondKey }

theorem relation_foldl_remove :
    (positions.foldl remove staged).relation = staged.relation := by
  induction positions generalizing staged with
  | nil => rfl
  | cons position rest ih => rw [List.foldl_cons, ih, relation_remove]

theorem foldl_remove_sound (sound : staged.Sound) : (positions.foldl remove staged).Sound := by
  induction positions generalizing staged with
  | nil => exact sound
  | cons position rest ih => exact ih (remove_sound sound)

theorem liveKey_foldl_remove :
    (positions.foldl remove staged).liveKey column place =
      if place ∈ positions then none else staged.liveKey column place := by
  induction positions generalizing staged with
  | nil => simp
  | cons position rest ih =>
      rw [List.foldl_cons, ih, liveKey_remove]
      by_cases here : place = position <;> simp [here]

theorem mem_removed_foldl_remove
    (member : place ∈ (positions.foldl remove staged).removed) :
    place ∈ staged.removed ∨ place ∈ positions := by
  induction positions generalizing staged with
  | nil => exact .inl member
  | cons position rest ih =>
      rcases ih member with former | listed
      · rcases mem_removed_remove.mp former with former | ⟨rfl, -⟩
        · exact .inl former
        · exact .inr (by simp)
      · exact .inr (by simp [listed])

theorem mem_tuples_foldl_remove {entry : Nat × Tuple}
    (member : entry ∈ (positions.foldl remove staged).tuples) : entry ∈ staged.tuples := by
  induction positions generalizing staged with
  | nil => exact member
  | cons position rest ih =>
      have former := ih member
      rw [tuples_remove] at former
      exact (List.mem_filter.mp former).1

/-- Room made for a tuple: rows in other places went, and nothing clashes any more. -/
structure Cleared (staged after : Staged) (tuple : Tuple) (own : Option Nat) : Prop where
  gone : ∃ positions : List Nat, after = positions.foldl remove staged ∧
    ∀ position ∈ positions, some position ≠ own
  clear : ∀ column ∈ staged.relation.schema.uniqueColumns, after.clashes tuple own column = []

/-- Once the rows that clash in a column are gone, none does, whatever else goes after. -/
theorem clashes_foldl_remove (sound : staged.Sound)
    (unique : column ∈ staged.relation.schema.uniqueColumns)
    (gone : ∀ position ∈ staged.clashes tuple own column, position ∈ positions) :
    (positions.foldl remove staged).clashes tuple own column = [] := by
  rw [List.eq_nil_iff_forall_not_mem]
  intro position clash
  have listed : column ∈ (positions.foldl remove staged).relation.schema.uniqueColumns := by
    rwa [relation_foldl_remove]
  obtain ⟨apart, key, tupleKey, live⟩ := (mem_clashes (foldl_remove_sound sound) listed).mp clash
  rw [liveKey_foldl_remove] at live
  split at live
  · cases live
  · rename_i stays
    exact stays (gone position ((mem_clashes sound unique).mpr ⟨apart, key, tupleKey, live⟩))

theorem displaceAll_cleared (tuple : Tuple) (own : Option Nat) {columns : List Nat} (sound : staged.Sound)
    (unique : ∀ column ∈ columns, column ∈ staged.relation.schema.uniqueColumns) :
    ∃ positions : List Nat,
      columns.foldl (fun staged column => staged.displace tuple own column) staged =
        positions.foldl remove staged ∧
      (∀ position ∈ positions, some position ≠ own) ∧
      ∀ column ∈ columns, (positions.foldl remove staged).clashes tuple own column = [] := by
  induction columns generalizing staged with
  | nil => exact ⟨[], rfl, by simp, by simp⟩
  | cons column rest ih =>
      obtain ⟨columnUnique, restUnique⟩ := List.forall_mem_cons.mp unique
      have displaced : (staged.displace tuple own column).relation = staged.relation :=
        relation_foldl_remove
      have displacedSound : (staged.displace tuple own column).Sound := foldl_remove_sound sound
      obtain ⟨positions, run, apart, clear⟩ := ih displacedSound (by rwa [displaced])
      have joined : (staged.clashes tuple own column ++ positions).foldl remove staged =
          positions.foldl remove (staged.displace tuple own column) := List.foldl_append
      refine ⟨staged.clashes tuple own column ++ positions, ?_, ?_, ?_⟩
      · rw [List.foldl_cons, run, joined]
      · intro position member
        rcases List.mem_append.mp member with clash | later
        · exact ((mem_clashes sound columnUnique).mp clash).1
        · exact apart position later
      · refine List.forall_mem_cons.mpr ⟨?_, ?_⟩
        · exact clashes_foldl_remove sound columnUnique
            fun position clash => List.mem_append_left _ clash
        · intro other member
          rw [joined]
          exact clear other member

theorem uniqueColumns_eq (sound : staged.Sound) :
    staged.uniqueColumns = staged.relation.schema.uniqueColumns :=
  sound.reflected.columns_eq

theorem firstClash?_eq_none_iff (sound : staged.Sound) :
    staged.firstClash? tuple own = none ↔
      ∀ column ∈ staged.relation.schema.uniqueColumns, staged.clashes tuple own column = [] := by
  simp only [firstClash?, List.findSome?_eq_none_iff, uniqueColumns_eq sound]
  refine forall₂_congr fun column _ => ?_
  cases staged.clashes tuple own column <;> simp

/-- A tuple that is accepted has room, under any resolution. -/
theorem accept_cleared {resolution : Resolution} (sound : staged.Sound)
    (accepted : staged.accept tuple own resolution = .ok (some after)) :
    Cleared staged after tuple own := by
  simp only [accept] at accepted
  split at accepted
  · rename_i free
    cases accepted
    exact ⟨⟨[], rfl, by simp⟩, (firstClash?_eq_none_iff sound).mp free⟩
  · split at accepted
    · cases accepted
    · cases accepted
      have unique : ∀ column ∈ staged.uniqueColumns,
          column ∈ staged.relation.schema.uniqueColumns := by simp [uniqueColumns_eq sound]
      obtain ⟨positions, run, apart, clear⟩ := displaceAll_cleared tuple own sound unique
      rw [run]
      refine ⟨⟨positions, rfl, apart⟩, ?_⟩
      rwa [uniqueColumns_eq sound] at clear
    all_goals cases accepted

namespace Cleared

variable (cleared : Cleared staged after tuple own)
include cleared

theorem relation : after.relation = staged.relation := by
  obtain ⟨positions, rfl, -⟩ := cleared.gone
  exact relation_foldl_remove

theorem sound (sound : staged.Sound) : after.Sound := by
  obtain ⟨positions, rfl, -⟩ := cleared.gone
  exact foldl_remove_sound sound

theorem mem_tuples {entry : Nat × Tuple} (member : entry ∈ after.tuples) :
    entry ∈ staged.tuples := by
  obtain ⟨positions, rfl, -⟩ := cleared.gone
  exact mem_tuples_foldl_remove member

theorem not_removed (isOwn : own = some position) (stays : position ∉ staged.removed) :
    position ∉ after.removed := by
  obtain ⟨positions, rfl, apart⟩ := cleared.gone
  intro member
  rcases mem_removed_foldl_remove member with former | listed
  · exact stays former
  · exact apart position listed isOwn.symm

end Cleared

theorem le_nextPosition : staged.relation.rows.length ≤ staged.nextPosition := by
  simp only [nextPosition]
  split
  · exact Nat.le_max_right _ _
  · exact Nat.le_refl _

theorem append_sound (sound : staged.Sound)
    (checked : staged.relation.schema.checkTuple tuple = .ok ())
    (clear : ∀ column ∈ staged.relation.schema.uniqueColumns,
      staged.clashes tuple none column = []) : (staged.append tuple).Sound := by
  refine stage_sound sound ?_ checked ?_
  · intro removed
    exact absurd (sound.removedStored _ removed) (Nat.not_lt.mpr le_nextPosition)
  · intro column unique
    rw [List.eq_nil_iff_forall_not_mem]
    intro position clash
    obtain ⟨-, key, tupleKey, live⟩ := (mem_clashes sound unique).mp clash
    have free : position ∈ staged.clashes tuple none column :=
      (mem_clashes sound unique).mpr ⟨by simp, key, tupleKey, live⟩
    rw [clear column unique] at free
    exact absurd free (by simp)

end Coffer.Staged
