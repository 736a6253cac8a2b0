import Coffer.Proofs.LiveRows
import Coffer.Proofs.Reachable

namespace Coffer

/-! # Rows that give way

Between two rows of a statement, and while rows give way to a new one, the clashes that are found
through the key indexes are those among the live rows. Rows give way in rounds: the first clash is
looked up, its rows go, and the clashes are looked up again. Each round leaves fewer unique columns
to clash in, as no row comes back.
-/

open Coffer.Language (Resolution)

theorem KeyIndex.Reflects.nodup_positions {index : KeyIndex} {keyAt : Nat → Option Key}
    (reflects : index.Reflects keyAt) {key : Key} : (index.positions key).Nodup := by
  rw [KeyIndex.positions]
  cases found : index.entries.lookup key with
  | none => exact List.nodup_nil
  | some positions =>
      obtain ⟨before, behind, split, -⟩ := List.lookup_eq_some_iff.mp found
      have listed : (key, positions) ∈ index.entries := by simp [split]
      exact (reflects.ascending _ listed).imp Nat.ne_of_lt

namespace Staged

variable {staged after other : Staged} {relation : Relation} {tuple : Tuple} {own : Option Nat}
variable {column position : Nat} {columns done positions : List Nat}

/-- The positions of the live rows that share a key with a tuple in a column, apart from the row
that the tuple stands for. -/
def sharing (staged : Staged) (tuple : Tuple) (own : Option Nat) (column : Nat) : List Nat :=
  (List.range staged.nextPosition).filter fun position =>
    some position != own && (staged.liveTuple position).any fun other => sharesKeyIn column tuple other

/-- The first unique column in which live rows share a key with a tuple, and their positions. -/
def firstSharing? (staged : Staged) (tuple : Tuple) (own : Option Nat) :
    Option (Nat × List Nat) :=
  (staged.relation.schema.uniqueColumns.map fun column =>
    (column, staged.sharing tuple own column)).find? fun found => !found.2.isEmpty

/-- The rounds in which live rows give way to a tuple: while it clashes, the rows of the first clash
are removed. -/
inductive GivesWay (tuple : Tuple) (own : Option Nat) : Staged → Staged → Prop where
  | clear {staged : Staged} (free : staged.firstClash? tuple own = none) :
      GivesWay tuple own staged staged
  | round {staged after : Staged} {column : Nat} {positions : List Nat}
      (clash : staged.firstClash? tuple own = some (column, positions))
      (rest : GivesWay tuple own (positions.foldl remove staged) after) :
      GivesWay tuple own staged after

/-- The points that insertions into a relation and updates of it come through: between two rows, and
in the midst of a round in which rows give way. -/
inductive Underway (relation : Relation) : Staged → Prop where
  | inserting {columns : Option (List String)} {resolution : Resolution} {rows : List (List Value)}
      {staged : Staged} (stages : relation.stageInsertion columns resolution rows = .ok staged) :
      Underway relation staged
  | updating {filter : Option Predicate} {assignments : List (Nat × Operand)}
      {resolution : Resolution} {rows rest : List (Nat × Tuple)} {staged : Staged}
      (split : relation.numberedTuples = rows ++ rest)
      (stages : rows.foldlM (updateRow filter assignments resolution) (.start relation) =
        .ok staged) : Underway relation staged
  | givingWay {staged : Staged} {tuple : Tuple} {own : Option Nat} {column : Nat}
      {gone rest : List Nat} (point : Underway relation staged)
      (clash : staged.firstClash? tuple own = some (column, gone ++ rest)) :
      Underway relation (gone.foldl remove staged)

/-- Whatever the statement, its staged changes are sound at every point. -/
theorem Underway.sound (wellFormed : relation.WellFormed) (underway : Underway relation staged) :
    staged.relation = relation ∧ staged.Sound := by
  induction underway with
  | inserting stages =>
      obtain ⟨same, sound, -⟩ := stageInsertion_sound wellFormed stages
      exact ⟨same, sound⟩
  | updating split stages =>
      obtain ⟨same, sound, -⟩ := foldlM_ok_invariant
        (fun staged => staged.relation = relation ∧ staged.Sound ∧ staged.Covering)
        (by
          rintro state row after member ⟨rfl, sound, covering⟩ step
          have listed : row ∈ state.relation.numberedTuples :=
            split ▸ List.mem_append_left _ member
          have within : row.1 < state.relation.rows.length :=
            List.mem_range.mp (List.of_mem_zip listed).1
          exact updateRow_sound within sound covering step)
        ⟨rfl, start_sound wellFormed, by simp [Covering, start]⟩ stages
      exact ⟨same, sound⟩
  | givingWay _ _ ih =>
      obtain ⟨same, sound⟩ := ih
      exact ⟨relation_foldl_remove.trans same, foldl_remove_sound sound⟩

/-! ## Clashes -/

theorem mem_sharing (sound : staged.Sound) :
    position ∈ staged.sharing tuple own column ↔
      some position ≠ own ∧
        ∃ other, staged.liveTuple position = some other ∧ sharesKeyIn column tuple other := by
  simp only [sharing, List.mem_filter, List.mem_range, Bool.and_eq_true, bne_iff_ne,
    Option.any_eq_true]
  constructor
  · rintro ⟨-, apart, other, live, shared⟩
    exact ⟨apart, other, live, shared⟩
  · rintro ⟨apart, other, live, shared⟩
    exact ⟨liveTuple_isSome_lt sound live, apart, other, live, shared⟩

theorem nodup_positionsOf (indexed : relation.Indexed)
    (unique : column ∈ relation.schema.uniqueColumns) {key : Key} :
    (relation.positionsOf column key).Nodup := by
  obtain ⟨index, listed, reflects⟩ := indexed.lookup unique
  simp only [Relation.positionsOf, listed]
  exact reflects.nodup_positions

/-- No live row is listed twice, neither by one index nor by both. -/
theorem nodup_clashes (sound : staged.Sound)
    (unique : column ∈ staged.relation.schema.uniqueColumns) :
    (staged.clashes tuple own column).Nodup := by
  obtain ⟨index, listed, reflects⟩ := sound.reflected.lookup unique
  rw [clashes]
  split
  · exact List.nodup_nil
  · rename_i key given
    simp only [listed]
    refine (List.nodup_append.mpr ⟨?_, ?_, ?_⟩).filter _
    · exact (nodup_positionsOf sound.base.indexed unique).filter _
    · exact reflects.nodup_positions
    · rintro stored storedMember added addedMember rfl
      obtain ⟨-, bare⟩ := untouched_eq_true_iff.mp (List.mem_filter.mp storedMember).2
      have placed := (reflects.mem_positions key stored).mp addedMember
      rw [stagedKey, bare] at placed
      cases placed

/-- Live rows have keys of their own, so at most one of them shares a key with a tuple. -/
theorem eq_of_mem_clashes (sound : staged.Sound)
    (unique : column ∈ staged.relation.schema.uniqueColumns) {first second : Nat}
    (firstClash : first ∈ staged.clashes tuple own column)
    (secondClash : second ∈ staged.clashes tuple own column) : first = second := by
  obtain ⟨-, key, given, live⟩ := (mem_clashes sound unique).mp firstClash
  obtain ⟨-, other, same, otherLive⟩ := (mem_clashes sound unique).mp secondClash
  cases given.symm.trans same
  exact sound.keysDistinct column unique first second key live otherLive

theorem clashes_eq_sharing (sound : staged.Sound)
    (unique : column ∈ staged.relation.schema.uniqueColumns) :
    staged.clashes tuple own column = staged.sharing tuple own column := by
  have nodup : (staged.sharing tuple own column).Nodup := List.nodup_range.filter _
  have perm : (staged.clashes tuple own column).Perm (staged.sharing tuple own column) :=
    (List.perm_ext_iff_of_nodup (nodup_clashes sound unique) nodup).mpr fun position => by
      rw [mem_clashes_iff sound unique, mem_sharing sound]
  cases found : staged.clashes tuple own column with
  | nil =>
      rw [found] at perm
      exact perm.nil_eq
  | cons first rest =>
      have single : rest = [] := by
        cases rest with
        | nil => rfl
        | cons second others =>
            have distinct : (staged.clashes tuple own column).Nodup := nodup_clashes sound unique
            have same : first = second := by
              have listed : first ∈ staged.clashes tuple own column := by simp [found]
              exact eq_of_mem_clashes sound unique listed (by simp [found])
            rw [found, same] at distinct
            simp at distinct
      rw [found, single] at perm
      rw [single, List.singleton_perm.mp perm]

theorem firstClash?_eq_firstSharing? (sound : staged.Sound) :
    staged.firstClash? tuple own = staged.firstSharing? tuple own := by
  have same : ∀ column ∈ staged.relation.schema.uniqueColumns,
      staged.clashes tuple own column = staged.sharing tuple own column :=
    fun _ => clashes_eq_sharing sound
  rw [firstClash?, firstSharing?, uniqueColumns_eq sound]
  revert same
  generalize staged.relation.schema.uniqueColumns = columns
  intro same
  induction columns with
  | nil => rfl
  | cons column rest ih =>
      obtain ⟨here, others⟩ := List.forall_mem_cons.mp same
      rw [List.findSome?_cons, List.map_cons, List.find?_cons, ih others, here]
      cases staged.sharing tuple own column <;> rfl

/-! ## Rounds -/

/-- The rounds leave nothing open: they end in one way at most. -/
theorem GivesWay.unique (first : GivesWay tuple own staged after)
    (second : GivesWay tuple own staged other) : other = after := by
  induction first with
  | clear free =>
      cases second with
      | clear _ => rfl
      | round clash _ => cases free.symm.trans clash
  | round clash _ ih =>
      cases second with
      | clear free => cases free.symm.trans clash
      | round again rest =>
          cases clash.symm.trans again
          exact ih rest

/-- The rounds end, and what they come to is that rows give way in one unique column after
another. -/
theorem givesWay_displace (sound : staged.Sound)
    (unique : staged.relation.schema.uniqueColumns = done ++ columns)
    (clear : ∀ column ∈ done, staged.clashes tuple own column = []) :
    GivesWay tuple own staged
      (columns.foldl (fun staged column => staged.displace tuple own column) staged) := by
  induction columns generalizing staged done with
  | nil =>
      refine .clear ((firstClash?_eq_none_iff sound).mpr ?_)
      rw [unique, List.append_nil]
      exact clear
  | cons column rest ih =>
      have within : column ∈ staged.relation.schema.uniqueColumns := by simp [unique]
      have displacedSound : (staged.displace tuple own column).Sound := foldl_remove_sound sound
      have same : (staged.displace tuple own column).relation = staged.relation :=
        relation_foldl_remove
      have displaced : ∀ earlier ∈ done ++ [column],
          (staged.displace tuple own column).clashes tuple own earlier = [] := by
        intro earlier member
        rcases List.mem_append.mp member with before | here
        · have listed : earlier ∈ staged.relation.schema.uniqueColumns := by simp [unique, before]
          exact clashes_foldl_remove sound listed (by simp [clear earlier before])
        · rw [List.mem_singleton.mp here]
          exact clashes_foldl_remove sound within fun _ => id
      have further := ih displacedSound (by rw [same, unique, List.append_cons]) displaced
      rw [List.foldl_cons]
      cases found : staged.clashes tuple own column with
      | nil =>
          have idle : staged.displace tuple own column = staged := by rw [displace, found]; rfl
          rwa [idle] at further ⊢
      | cons first others =>
          have clash : staged.firstClash? tuple own = some (column, first :: others) := by
            rw [firstClash?, uniqueColumns_eq sound]
            exact List.findSome?_eq_some_iff.mpr ⟨done, column, rest, unique, by simp only [found],
              fun earlier member => by simp only [clear earlier member]⟩
          refine .round clash ?_
          rwa [displace, found] at further ⊢

/-- All unique columns one after another. -/
theorem givesWay_all (tuple : Tuple) (own : Option Nat) (sound : staged.Sound) :
    GivesWay tuple own staged (staged.relation.schema.uniqueColumns.foldl
      (fun staged column => staged.displace tuple own column) staged) :=
  givesWay_displace sound (List.nil_append _).symm (by simp)

theorem accept_replace (tuple : Tuple) (own : Option Nat) (sound : staged.Sound) :
    staged.accept tuple own .replace = .ok (some (staged.relation.schema.uniqueColumns.foldl
      (fun staged column => staged.displace tuple own column) staged)) := by
  rw [accept, uniqueColumns_eq sound]
  cases found : staged.firstClash? tuple own with
  | none =>
      have idle := (givesWay_all tuple own sound).unique (.clear found)
      exact congrArg (fun cleared => Except.ok (some cleared)) idle
  | some clash => rfl

/-- No row is left to clash with. -/
theorem GivesWay.clear_after (givesWay : GivesWay tuple own staged after) :
    after.firstClash? tuple own = none := by
  induction givesWay with
  | clear free => exact free
  | round _ _ ih => exact ih

theorem GivesWay.sound_after (givesWay : GivesWay tuple own staged after) (sound : staged.Sound) :
    after.Sound := by
  induction givesWay with
  | clear _ => exact sound
  | round _ _ ih => exact ih (foldl_remove_sound sound)

end Staged

namespace Database

open Staged (GivesWay Underway)

/-- At every point of an insertion or update the clashes of a tuple are found exactly: those with the
live rows in the first unique column where there are any. And rows that give way to it do so in
finitely many rounds, after which just those rows are gone that shared a key with it in some unique
column, so that none is left to clash with. -/
theorem clashes_exact {database : Database} {name : String} {relation : Relation} {staged : Staged}
    (tuple : Tuple) (own : Option Nat) (reached : database.Reachable)
    (found : database.state.store.relation name = .ok relation)
    (underway : Underway relation staged) :
    staged.firstClash? tuple own = staged.firstSharing? tuple own ∧
    ∃ after, GivesWay tuple own staged after ∧
      (∀ other, GivesWay tuple own staged other → other = after) ∧
      staged.accept tuple own .replace = .ok (some after) ∧
      after.firstSharing? tuple own = none ∧
      ∀ position, after.liveTuple position = (staged.liveTuple position).filter fun other =>
        some position = own ||
          !relation.schema.uniqueColumns.any fun column => sharesKeyIn column tuple other := by
  have wellFormed := reached.wellFormed.current.store.relations _ (Store.relation_eq_ok_iff.mp found)
  obtain ⟨rfl, sound⟩ := underway.sound wellFormed
  have givesWay := Staged.givesWay_all tuple own sound
  refine ⟨Staged.firstClash?_eq_firstSharing? sound, _, givesWay, fun _ => givesWay.unique,
    Staged.accept_replace tuple own sound, ?_, fun position => ?_⟩
  · rw [← Staged.firstClash?_eq_firstSharing? (givesWay.sound_after sound)]
    exact givesWay.clear_after
  · exact Staged.liveTuple_displaceAll sound fun _ => id

/-- A row has made the first stored one give way. The next tuple clashes with it in one column and
with the second stored row in another one. -/
theorem clashes_exact_in_two_columns :
    let database := fromTexts ["CREATE TABLE users (name TEXT UNIQUE, mail TEXT UNIQUE)",
      "INSERT INTO users (name, mail) VALUES ('ann', 'a'), ('bob', 'b'), ('cid', 'c')"]
    let schema : Table :=
      { name := "users", indexes := []
        columns := [Table.implicitKey, { Column.plain "name" .text with unique := true },
          { Column.plain "mail" .text with unique := true }] }
    let relation := Relation.build schema
      [schema.row [.integer 1, .text "ann", .text "a"], schema.row [.integer 2, .text "bob", .text "b"],
        schema.row [.integer 3, .text "cid", .text "c"]] 4
    let columns := some ["name", "mail"]
    let tuple : Tuple := [.integer 5, .text "dan", .text "b"]
    database.state.store.relation "users" = .ok relation ∧
    ∃ staged after, relation.stageInsertion columns .replace [[.text "dan", .text "a"]] = .ok staged ∧
      staged.firstSharing? tuple none = some (1, [3]) ∧ GivesWay tuple none staged after ∧
      after.firstSharing? tuple none = none ∧
      after.live = [[.integer 3, .text "cid", .text "c"]] := by
  intro database schema relation columns tuple
  have found : database.state.store.relation "users" = .ok relation := by decide +kernel
  have reached : database.Reachable := fromTexts_reachable
  have evaluated : (relation.stageInsertion columns .replace [[.text "dan", .text "a"]]).toOption.map
      (fun staged => (staged.firstClash? tuple none,
        (staged.accept tuple none .replace).toOption.map (Option.map Staged.live))) =
      some (some (1, [3]), some (some [[.integer 3, .text "cid", .text "c"]])) := by decide +kernel
  obtain ⟨staged, stages, shown⟩ := Option.map_eq_some_iff.mp evaluated
  have stages := eq_ok_of_toOption stages
  obtain ⟨clash, left⟩ := Prod.mk.inj shown
  obtain ⟨same, after, givesWay, -, accepted, free, -⟩ :=
    clashes_exact tuple none reached found (.inserting stages)
  rw [accepted] at left
  exact ⟨found, staged, after, stages, same.symm.trans clash, givesWay, free,
    Option.some.inj (Option.some.inj left)⟩

end Database

end Coffer
