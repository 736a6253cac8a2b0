import Coffer.Proofs.Lookup
import Coffer.Proofs.Mutation

namespace Coffer

/-! # Live rows

What a statement sees while it works: at each position the tuple that is staged there, or
else the stored one, unless it was removed. The key indexes, of stored and of staged rows,
only help to find what a look at all live rows would.
-/

open Coffer.Language (Resolution)

/-- Whether two tuples have keys in a column, and the same one. -/
def sharesKeyIn (column : Nat) (first second : Tuple) : Bool :=
  (first.getD column .null).sharesKey (second.getD column .null)

theorem sharesKeyIn_eq_true_iff {column : Nat} {first second : Tuple} :
    sharesKeyIn column first second = true ↔
      ∃ key, (first.getD column .null).key? = some key ∧
        (second.getD column .null).key? = some key :=
  Value.sharesKey_eq_true_iff

namespace Staged

variable {staged after : Staged} {tuple other : Tuple} {own : Option Nat}
variable {column position place bound : Nat} {columns positions : List Nat}

/-- The live tuple at a position. -/
def liveTuple (staged : Staged) (position : Nat) : Option Tuple :=
  match staged.tuples.lookup position with
  | some tuple => some tuple
  | none =>
    if position ∈ staged.removed then none
    else (staged.relation.rows[position]?).map staged.relation.schema.tuple

theorem liveRow_eq_map (sound : staged.Sound) :
    staged.liveRow position = (staged.liveTuple position).map staged.relation.schema.row := by
  simp only [liveRow, liveTuple]
  cases staged.tuples.lookup position with
  | some tuple => rfl
  | none =>
      simp only
      split
      · rfl
      · cases stored : staged.relation.rows[position]? with
        | none => rfl
        | some row =>
            have held := sound.base.rowsHeld row (List.mem_of_getElem? stored)
            simp [Table.row_tuple held.columns sound.base.distinct]

theorem liveKey_eq_bind (sound : staged.Sound) :
    staged.liveKey column position =
      (staged.liveTuple position).bind fun tuple => (tuple.getD column .null).key? := by
  cases found : staged.tuples.lookup position with
  | some tuple => rw [liveKey_of_staged sound found, liveTuple, found, Option.bind_some]
  | none =>
      simp only [liveKey, liveRow, liveTuple, found]
      split
      · rfl
      · cases staged.relation.rows[position]? with
        | none => rfl
        | some row =>
            simp only [Option.bind_some, Option.map_some, Relation.keyOf,
              List.getD_eq_getElem?_getD]
            cases (staged.relation.schema.tuple row)[column]? <;> rfl

/-- The clashes are the live rows in other places that share the key of the tuple. -/
theorem mem_clashes_iff (sound : staged.Sound)
    (unique : column ∈ staged.relation.schema.uniqueColumns) :
    position ∈ staged.clashes tuple own column ↔
      some position ≠ own ∧
        ∃ other, staged.liveTuple position = some other ∧ sharesKeyIn column tuple other := by
  rw [mem_clashes sound unique]
  refine and_congr_right fun _ => ?_
  simp only [liveKey_eq_bind sound, Option.bind_eq_some_iff, sharesKeyIn_eq_true_iff]
  constructor
  · rintro ⟨key, given, other, live, shared⟩
    exact ⟨other, live, key, given, shared⟩
  · rintro ⟨other, live, key, given, shared⟩
    exact ⟨key, given, other, live, shared⟩

theorem liveTuple_remove :
    (staged.remove position).liveTuple place =
      if place = position then none else staged.liveTuple place := by
  simp only [liveTuple, relation_remove, tuples_remove, lookup_filter_ne, mem_removed_remove]
  by_cases here : place = position
  · subst here
    by_cases within : place < staged.relation.rows.length
    · simp [within]
    · simp [List.getElem?_eq_none (Nat.le_of_not_lt within)]
  · simp [here]

theorem liveTuple_foldl_remove :
    (positions.foldl remove staged).liveTuple place =
      if place ∈ positions then none else staged.liveTuple place := by
  induction positions generalizing staged with
  | nil => simp
  | cons position rest ih =>
      rw [List.foldl_cons, ih, liveTuple_remove]
      by_cases here : place = position <;> simp [here]

theorem liveTuple_stage :
    (staged.stage position tuple).liveTuple place =
      if place = position then some tuple else staged.liveTuple place := by
  simp only [liveTuple, relation_stage, lookup_stage, removed_stage]
  by_cases here : place = position <;> simp [here]

/-- The rows that clash in one of the columns give way, and no others. -/
theorem liveTuple_displaceAll (sound : staged.Sound)
    (unique : ∀ column ∈ columns, column ∈ staged.relation.schema.uniqueColumns) :
    (columns.foldl (fun staged column => staged.displace tuple own column) staged).liveTuple
        place =
      (staged.liveTuple place).filter fun other =>
        some place = own || !columns.any fun column => sharesKeyIn column tuple other := by
  induction columns generalizing staged with
  | nil => cases found : staged.liveTuple place <;> simp [found, Option.filter]
  | cons column rest ih =>
      obtain ⟨columnUnique, restUnique⟩ := List.forall_mem_cons.mp unique
      have displaced : (staged.displace tuple own column).relation = staged.relation :=
        relation_foldl_remove
      have displacedSound : (staged.displace tuple own column).Sound := foldl_remove_sound sound
      rw [List.foldl_cons, ih displacedSound (by rwa [displaced]), displace,
        liveTuple_foldl_remove]
      simp only [mem_clashes_iff sound columnUnique]
      cases staged.liveTuple place with
      | none => simp
      | some other =>
          by_cases here : some place = own
          · simp [here]
          · cases shared : sharesKeyIn column tuple other <;> simp [here, shared, Option.filter]

/-- The first column in which a tuple clashes. -/
theorem map_fst_firstClash? (sound : staged.Sound) :
    (staged.firstClash? tuple own).map Prod.fst =
      staged.relation.schema.uniqueColumns.find? fun column =>
        !(staged.clashes tuple own column).isEmpty := by
  rw [firstClash?, uniqueColumns_eq sound]
  induction staged.relation.schema.uniqueColumns with
  | nil => rfl
  | cons column rest ih =>
      rw [List.findSome?_cons, List.find?_cons]
      cases staged.clashes tuple own column with
      | nil => simpa using ih
      | cons position others => rfl

/-- What becomes of a tuple, told by the first unique column in which it clashes. -/
theorem accept_eq {resolution : Resolution} (sound : staged.Sound) :
    staged.accept tuple own resolution =
      match staged.relation.schema.uniqueColumns.find? fun column =>
          !(staged.clashes tuple own column).isEmpty with
      | none => .ok (some staged)
      | some column =>
        match resolution with
        | .ignore => .ok none
        | .replace =>
          .ok (some (staged.relation.schema.uniqueColumns.foldl
            (fun staged column => staged.displace tuple own column) staged))
        | .abort | .fail | .rollback =>
          .error (.notUnique staged.relation.schema.name
            ((staged.relation.schema.columnNames[column]?).getD "")) := by
  rw [← map_fst_firstClash? sound, accept, uniqueColumns_eq sound]
  cases staged.firstClash? tuple own with
  | none => rfl
  | some found => cases resolution <;> rfl

theorem lt_nextPosition {entry : Nat × Tuple} (sound : staged.Sound)
    (member : entry ∈ staged.tuples) : entry.1 < staged.nextPosition := by
  rw [nextPosition]
  cases last : staged.tuples.getLast? with
  | none => simp [List.getLast?_eq_none_iff.mp last] at member
  | some final =>
      obtain ⟨front, split⟩ := List.getLast?_eq_some_iff.mp last
      have ascending := sound.ascending
      rw [split] at ascending member
      rcases List.mem_append.mp member with earlier | same
      · have before := (List.pairwise_append.mp ascending).2.2 entry earlier final (by simp)
        simp only
        omega
      · rw [List.mem_singleton.mp same]
        simp only
        omega

/-- Behind all rows there is none. -/
theorem liveTuple_of_le (sound : staged.Sound) (beyond : staged.nextPosition ≤ position) :
    staged.liveTuple position = none := by
  have unstaged : staged.tuples.lookup position = none := by
    rw [List.lookup_eq_none_iff]
    intro entry member
    have before := lt_nextPosition sound member
    exact bne_iff_ne.mpr (by omega)
  have unstored : staged.relation.rows[position]? = none :=
    List.getElem?_eq_none (Nat.le_trans le_nextPosition beyond)
  simp [liveTuple, unstaged, unstored]

theorem liveTuple_isSome_lt (sound : staged.Sound)
    (live : staged.liveTuple position = some tuple) : position < staged.nextPosition := by
  cases Nat.lt_or_ge position staged.nextPosition with
  | inl before => exact before
  | inr beyond => simp [liveTuple_of_le sound beyond] at live

/-- All live tuples, in order. -/
def live (staged : Staged) : List Tuple :=
  (List.range staged.nextPosition).filterMap staged.liveTuple

theorem filterMap_liveTuple_beyond (sound : staged.Sound) (enough : staged.nextPosition ≤ bound)
    (more : Nat) : ((List.range more).map (bound + ·)).filterMap staged.liveTuple = [] := by
  rw [List.filterMap_eq_nil_iff]
  intro position member
  obtain ⟨offset, -, rfl⟩ := List.mem_map.mp member
  exact liveTuple_of_le sound (Nat.le_add_right_of_le enough)

/-- To look further than the last row changes nothing. -/
theorem live_eq (sound : staged.Sound) (enough : staged.nextPosition ≤ bound) :
    staged.live = (List.range bound).filterMap staged.liveTuple := by
  obtain ⟨more, rfl⟩ := Nat.exists_eq_add_of_le enough
  rw [List.range_add, List.filterMap_append, filterMap_liveTuple_beyond sound (Nat.le_refl _),
    List.append_nil, live]

theorem mem_live (sound : staged.Sound) :
    tuple ∈ staged.live ↔ ∃ position, staged.liveTuple position = some tuple := by
  simp only [live, List.mem_filterMap, List.mem_range]
  constructor
  · rintro ⟨position, -, found⟩
    exact ⟨position, found⟩
  · rintro ⟨position, found⟩
    exact ⟨position, liveTuple_isSome_lt sound found, found⟩

/-- A new row comes behind all live ones. -/
theorem live_append (sound : staged.Sound) (appended : (staged.append tuple).Sound) :
    (staged.append tuple).live = staged.live ++ [tuple] := by
  have placed : (staged.append tuple).tuples.lookup staged.nextPosition = some tuple := by
    rw [append, lookup_stage, if_pos rfl]
  obtain ⟨more, reaches⟩ :=
    Nat.exists_eq_add_of_le (Nat.succ_le_of_lt (lt_nextPosition appended (mem_of_lookup placed)))
  have before : (List.range staged.nextPosition).filterMap (staged.append tuple).liveTuple =
      staged.live := by
    refine List.filterMap_congr fun position member => ?_
    rw [append, liveTuple_stage, if_neg (Nat.ne_of_lt (List.mem_range.mp member))]
  have behind : ((List.range more).map (staged.nextPosition + 1 + ·)).filterMap
      (staged.append tuple).liveTuple = [] := by
    rw [← filterMap_liveTuple_beyond sound (Nat.le_succ _) more]
    refine List.filterMap_congr fun position member => ?_
    obtain ⟨offset, -, rfl⟩ := List.mem_map.mp member
    rw [append, liveTuple_stage, if_neg (by omega)]
  have here : (staged.append tuple).liveTuple staged.nextPosition = some tuple := by
    rw [append, liveTuple_stage, if_pos rfl]
  rw [live, reaches, List.range_add, List.filterMap_append, behind, List.append_nil,
    List.range_succ, List.filterMap_append, before]
  simp [here]

/-- A new tuple clashes in a column if a live row shares its key. -/
theorem isEmpty_clashes (sound : staged.Sound)
    (unique : column ∈ staged.relation.schema.uniqueColumns) :
    (staged.clashes tuple none column).isEmpty =
      !(staged.live.any fun other => sharesKeyIn column tuple other) := by
  rw [Bool.eq_iff_iff, List.isEmpty_iff, List.eq_nil_iff_forall_not_mem]
  simp only [mem_clashes_iff sound unique, Bool.not_eq_true', List.any_eq_false, mem_live sound,
    ne_eq, reduceCtorEq, not_false_eq_true, true_and, not_exists, not_and]
  constructor
  · rintro clear other ⟨position, found⟩ shared
    exact clear position other found shared
  · intro clear position other found shared
    exact clear other ⟨position, found⟩ shared

theorem live_displaceAll (sound : staged.Sound)
    (unique : ∀ column ∈ columns, column ∈ staged.relation.schema.uniqueColumns) :
    (columns.foldl (fun staged column => staged.displace tuple none column) staged).live =
      staged.live.filter fun other => !columns.any fun column => sharesKeyIn column tuple other := by
  obtain ⟨positions, run, -⟩ := displaceAll_cleared tuple none sound unique
  have cleared :
      (columns.foldl (fun staged column => staged.displace tuple none column) staged).Sound := by
    rw [run]
    exact foldl_remove_sound sound
  rw [live_eq sound (Nat.le_max_left _ _), live_eq cleared (Nat.le_max_right _ _),
    List.filter_filterMap]
  refine List.filterMap_congr fun position _ => ?_
  rw [liveTuple_displaceAll sound unique]
  simp

/-- Positions in ascending order find what others do that leave out only gaps. -/
theorem filterMap_eq_of_ascending {find : Nat → Option Row} {first second : List Nat}
    (firstAscending : first.Pairwise (· < ·)) (secondAscending : second.Pairwise (· < ·))
    (agree : ∀ position, (find position).isSome = true →
      (position ∈ first ↔ position ∈ second)) :
    first.filterMap find = second.filterMap find := by
  have present (positions : List Nat) :
      positions.filterMap find =
        (positions.filter fun position => (find position).isSome).filterMap find := by
    rw [List.filterMap_filter]
    refine List.filterMap_congr fun position _ => ?_
    cases find position <;> rfl
  rw [present first, present second,
    (firstAscending.filter _).eq_of_mem_iff (secondAscending.filter _)]
  intro position
  simp only [List.mem_filter]
  constructor
  · exact fun ⟨member, found⟩ => ⟨(agree position found).mp member, found⟩
  · exact fun ⟨member, found⟩ => ⟨(agree position found).mpr member, found⟩

theorem map_row_live (sound : staged.Sound) :
    staged.live.map staged.relation.schema.row =
      (List.range staged.nextPosition).filterMap staged.liveRow := by
  rw [live, List.map_filterMap]
  exact List.filterMap_congr fun position _ => (liveRow_eq_map sound).symm

/-- What an insertion leaves are the live rows. -/
theorem rows_writeInsertion_live (sound : staged.Sound) (behind : staged.Behind) :
    (writeInsertion staged).relation.rows = staged.live.map staged.relation.schema.row := by
  rw [rows_writeInsertion sound behind, map_row_live sound]
  refine filterMap_eq_of_ascending ?_ List.pairwise_lt_range fun position found => ?_
  · refine List.pairwise_append.mpr ⟨List.pairwise_lt_range,
      List.pairwise_map.mpr sound.ascending, fun stored within position staged => ?_⟩
    obtain ⟨entry, member, rfl⟩ := List.mem_map.mp staged
    have above := behind entry member
    have below := List.mem_range.mp within
    omega
  · obtain ⟨row, live⟩ := Option.isSome_iff_exists.mp found
    have before : position < staged.nextPosition := by
      rw [liveRow_eq_map sound] at live
      obtain ⟨tuple, liveTuple, -⟩ := Option.map_eq_some_iff.mp live
      exact liveTuple_isSome_lt sound liveTuple
    simp only [List.mem_append, List.mem_range, before, iff_true]
    cases Nat.lt_or_ge position staged.relation.rows.length with
    | inl within => exact .inl within
    | inr beyond =>
        cases listed : staged.tuples.lookup position with
        | none => simp [liveRow, listed, List.getElem?_eq_none beyond] at live
        | some tuple =>
            exact .inr (List.mem_map.mpr ⟨(position, tuple), mem_of_lookup listed, rfl⟩)

theorem nextPosition_of_covering (covering : staged.Covering) :
    staged.nextPosition = staged.relation.rows.length := by
  simp only [nextPosition]
  split
  · rename_i entry last
    have within := covering entry (List.mem_of_getLast? last)
    omega
  · rfl

/-- What an update leaves are the live rows. -/
theorem writeUpdate_live (sound : staged.Sound) (covering : staged.Covering) :
    ∃ after, writeUpdate staged = .ok after ∧ after.schema = staged.relation.schema ∧
      after.rows = staged.live.map staged.relation.schema.row := by
  obtain ⟨after, written, sameSchema, rows, -⟩ := writeUpdate_exists sound covering
  refine ⟨after, written, sameSchema, ?_⟩
  rw [rows, map_row_live sound, nextPosition_of_covering covering]

theorem filterMap_range_getElem? {tuples : List Tuple} :
    (List.range tuples.length).filterMap (fun position => tuples[position]?) = tuples := by
  induction tuples with
  | nil => rfl
  | cons tuple rest ih =>
      rw [List.length_cons, List.range_succ_eq_map, List.filterMap_cons, List.filterMap_map]
      exact congrArg (tuple :: ·) ih

/-- At the start the stored rows are live. -/
theorem live_start {relation : Relation} : (start relation).live = relation.tuples := by
  have stored : (start relation).liveTuple = fun position => relation.tuples[position]? := by
    funext position
    simp [liveTuple, start, Relation.tuples]
  have all : (start relation).nextPosition = relation.tuples.length := by
    simp [nextPosition, start, Relation.tuples]
  rw [live, stored, all, filterMap_range_getElem?]

end Staged

end Coffer
