import Coffer.Store.Relation

namespace Coffer

/-! # Key indexes against the rows

An index is judged by what it is asked for: the positions it lists for a key are those at
which the rows have that key, whatever happened to the rows before.
-/

namespace KeyIndex

variable {index : KeyIndex} {key other : Key} {position place : Nat} {positions : List Nat}

theorem mem_insertPosition :
    place ∈ insertPosition position positions ↔ place = position ∨ place ∈ positions := by
  induction positions with
  | nil => simp [insertPosition]
  | cons first rest ih =>
      simp only [insertPosition]
      split
      · simp
      · split
        · rename_i same
          simp [same]
        · simp only [List.mem_cons, ih]
          exact or_left_comm

theorem insertPosition_ascending (ascending : positions.Pairwise (· < ·)) :
    (insertPosition position positions).Pairwise (· < ·) := by
  induction positions with
  | nil => simp [insertPosition]
  | cons first rest ih =>
      obtain ⟨above, restAscending⟩ := List.pairwise_cons.mp ascending
      simp only [insertPosition]
      split
      · rename_i before
        refine List.pairwise_cons.mpr ⟨fun place member => ?_, ascending⟩
        rcases List.mem_cons.mp member with rfl | member
        · exact before
        · exact Nat.lt_trans before (above place member)
      · split
        · exact ascending
        · refine List.pairwise_cons.mpr ⟨fun place member => ?_, ih restAscending⟩
          rcases mem_insertPosition.mp member with rfl | member
          · omega
          · exact above place member

theorem lookup_addTo (entries : List (Key × List Nat)) :
    ((addTo key position entries).lookup other).getD [] =
      if other = key then insertPosition position ((entries.lookup key).getD [])
      else (entries.lookup other).getD [] := by
  induction entries with
  | nil =>
      by_cases same : other = key
      · simp [addTo, same, insertPosition]
      · have differs : (other == key) = false := by simpa using same
        simp [addTo, List.lookup_cons, same, differs]
  | cons entry rest ih =>
      obtain ⟨found, listed⟩ := entry
      by_cases here : found = key
      · subst here
        by_cases same : other = found
        · simp [addTo, same]
        · have differs : (other == found) = false := by simpa using same
          simp [addTo, List.lookup_cons, same, differs]
      · have keyDiffers : (key == found) = false := by simpa using Ne.symm here
        simp only [addTo, if_neg here, List.lookup_cons, keyDiffers]
        by_cases same : other = found
        · have differs : ¬ other = key := fun equal => here (same ▸ equal)
          simp [same, here]
        · have differs : (other == found) = false := by simpa using same
          simpa only [differs] using ih

theorem positions_add :
    (index.add key position).positions other =
      if other = key then insertPosition position (index.positions key)
      else index.positions other :=
  lookup_addTo index.entries

theorem keys_addTo (entries : List (Key × List Nat)) :
    (addTo key position entries).map Prod.fst =
      if key ∈ entries.map Prod.fst then entries.map Prod.fst
      else entries.map Prod.fst ++ [key] := by
  induction entries with
  | nil => simp [addTo]
  | cons entry rest ih =>
      by_cases here : entry.1 = key
      · simp [addTo, here]
      · have apart : ¬ key = entry.1 := fun same => here same.symm
        simp only [addTo, if_neg here, List.map_cons, ih, List.mem_cons, apart, false_or]
        split <;> simp

theorem positions_of_absent (absent : key ∉ index.entries.map Prod.fst) :
    index.positions key = [] := by
  have missing : index.entries.lookup key = none := by
    rw [List.lookup_eq_none_iff]
    intro entry member
    have := fun same => absent (List.mem_map.mpr ⟨entry, member, same⟩)
    simpa using fun same : key = entry.1 => this same.symm
  simp [positions, missing]

theorem lookup_removeFrom {entries : List (Key × List Nat)}
    (distinct : (entries.map Prod.fst).Nodup) :
    ((removeFrom key position entries).lookup other).getD [] =
      if other = key then ((entries.lookup key).getD []).filter (· != position)
      else (entries.lookup other).getD [] := by
  induction entries with
  | nil => simp [removeFrom]
  | cons entry rest ih =>
      obtain ⟨found, listed⟩ := entry
      simp only [List.map_cons, List.nodup_cons] at distinct
      by_cases here : found = key
      · subst here
        have vacant : (KeyIndex.mk rest).positions found = [] := positions_of_absent distinct.1
        have restMisses : (rest.lookup found).getD [] = [] := vacant
        simp only [removeFrom, if_true]
        by_cases same : other = found
        · subst same
          split
          · rename_i emptied
            simp only [restMisses, List.lookup_cons, BEq.rfl, if_true, Option.getD_some]
            exact emptied.symm
          · simp
        · have differs : (other == found) = false := by simpa using same
          split <;> simp [List.lookup_cons, same, differs]
      · have keyDiffers : (key == found) = false := by simpa using Ne.symm here
        simp only [removeFrom, if_neg here, List.lookup_cons, keyDiffers]
        by_cases same : other = found
        · simp [same, here]
        · have differs : (other == found) = false := by simpa using same
          simpa only [differs] using ih distinct.2

theorem positions_remove (distinct : (index.entries.map Prod.fst).Nodup) :
    (index.remove key position).positions other =
      if other = key then (index.positions key).filter (· != position)
      else index.positions other :=
  lookup_removeFrom distinct

theorem keys_removeFrom (entries : List (Key × List Nat)) :
    ((removeFrom key position entries).map Prod.fst).Sublist (entries.map Prod.fst) := by
  induction entries with
  | nil => simp [removeFrom]
  | cons entry rest ih =>
      simp only [removeFrom]
      split
      · rename_i here
        split
        · exact List.sublist_cons_self _ _
        · simp [here]
      · simpa using ih

/-- An index over rows whose keys are told by position: it lists each key once, and with it
the positions that have the key, in ascending order. -/
structure Reflects (index : KeyIndex) (keyAt : Nat → Option Key) : Prop where
  distinct : (index.entries.map Prod.fst).Nodup
  ascending : ∀ entry ∈ index.entries, entry.2.Pairwise (· < ·)
  mem_positions : ∀ key position, position ∈ index.positions key ↔ keyAt position = some key

theorem reflects_empty : empty.Reflects fun _ => none :=
  ⟨by simp [empty], by simp [empty], by simp [empty, positions]⟩

theorem ascending_addTo {entries : List (Key × List Nat)}
    (ascending : ∀ entry ∈ entries, entry.2.Pairwise (· < ·)) :
    ∀ entry ∈ addTo key position entries, entry.2.Pairwise (· < ·) := by
  induction entries with
  | nil => simp [addTo]
  | cons first rest ih =>
      obtain ⟨firstAscending, restAscending⟩ := List.forall_mem_cons.mp ascending
      simp only [addTo]
      split
      · exact List.forall_mem_cons.mpr ⟨insertPosition_ascending firstAscending, restAscending⟩
      · exact List.forall_mem_cons.mpr ⟨firstAscending, ih restAscending⟩

theorem ascending_removeFrom {entries : List (Key × List Nat)}
    (ascending : ∀ entry ∈ entries, entry.2.Pairwise (· < ·)) :
    ∀ entry ∈ removeFrom key position entries, entry.2.Pairwise (· < ·) := by
  induction entries with
  | nil => simp [removeFrom]
  | cons first rest ih =>
      obtain ⟨firstAscending, restAscending⟩ := List.forall_mem_cons.mp ascending
      simp only [removeFrom]
      split
      · split
        · exact restAscending
        · exact List.forall_mem_cons.mpr ⟨firstAscending.filter _, restAscending⟩
      · exact List.forall_mem_cons.mpr ⟨firstAscending, ih restAscending⟩

variable {keyAt after : Nat → Option Key}

theorem Reflects.add (reflects : index.Reflects keyAt) (vacant : keyAt position = none)
    (placed : after position = some key)
    (kept : ∀ place, place ≠ position → after place = keyAt place) :
    (index.add key position).Reflects after where
  distinct := by
    change ((addTo key position index.entries).map Prod.fst).Nodup
    rw [keys_addTo]
    split
    · exact reflects.distinct
    · rename_i absent
      refine List.nodup_append.mpr ⟨reflects.distinct, by simp, fun found member other last => ?_⟩
      rintro rfl
      exact absent (List.mem_singleton.mp last ▸ member)
  ascending := ascending_addTo reflects.ascending
  mem_positions := by
    intro other place
    rw [positions_add]
    by_cases here : place = position
    · subst here
      rw [placed]
      split
      · rename_i same
        simp [mem_insertPosition, same]
      · rename_i different
        rw [reflects.mem_positions, vacant]
        simp [Ne.symm different]
    · rw [kept place here, ← reflects.mem_positions]
      split
      · rename_i same
        simp [mem_insertPosition, here, same]
      · rfl

theorem Reflects.remove (reflects : index.Reflects keyAt) (placed : keyAt position = some key)
    (vacated : after position = none)
    (kept : ∀ place, place ≠ position → after place = keyAt place) :
    (index.remove key position).Reflects after where
  distinct := reflects.distinct.sublist (keys_removeFrom _)
  ascending := ascending_removeFrom reflects.ascending
  mem_positions := by
    intro other place
    rw [positions_remove reflects.distinct]
    by_cases here : place = position
    · subst here
      rw [vacated]
      split
      · simp
      · rename_i different
        rw [reflects.mem_positions, placed]
        simp [Ne.symm different]
    · rw [kept place here, ← reflects.mem_positions]
      split
      · rename_i same
        simp [here, same]
      · rfl

end KeyIndex

/-- Key indexes for columns, each over the keys of its column by position. -/
structure Reflected (keys : List (Nat × KeyIndex)) (columns : List Nat)
    (keyAt : Nat → Nat → Option Key) : Prop where
  columns_eq : keys.map Prod.fst = columns
  reflects : ∀ entry ∈ keys, entry.2.Reflects (keyAt entry.1)

namespace Reflected

variable {keys : List (Nat × KeyIndex)} {columns : List Nat} {column position : Nat}
variable {keyAt after : Nat → Nat → Option Key} {found : Nat → Option Key}

theorem initial (columns : List Nat) :
    Reflected (columns.map fun column => (column, .empty)) columns fun _ _ => none := by
  refine ⟨by rw [List.map_map]; exact List.map_id columns, ?_⟩
  intro entry member
  obtain ⟨column, -, rfl⟩ := List.mem_map.mp member
  exact KeyIndex.reflects_empty

theorem congr (reflected : Reflected keys columns keyAt)
    (same : ∀ column ∈ columns, ∀ position, after column position = keyAt column position) :
    Reflected keys columns after := by
  refine ⟨reflected.columns_eq, fun entry member => ?_⟩
  have listed : entry.1 ∈ columns :=
    reflected.columns_eq ▸ List.mem_map.mpr ⟨entry, member, rfl⟩
  rw [funext (same entry.1 listed)]
  exact reflected.reflects entry member

theorem lookup (reflected : Reflected keys columns keyAt) (member : column ∈ columns) :
    ∃ index, keys.lookup column = some index ∧ index.Reflects (keyAt column) := by
  cases listed : keys.lookup column with
  | none =>
      rw [← reflected.columns_eq] at member
      obtain ⟨entry, present, rfl⟩ := List.mem_map.mp member
      simpa using List.lookup_eq_none_iff.mp listed entry present
  | some index =>
      obtain ⟨before, behind, split, -⟩ := List.lookup_eq_some_iff.mp listed
      exact ⟨index, rfl, reflected.reflects (column, index) (by simp [split])⟩

theorem lookup_of_absent (reflected : Reflected keys columns keyAt) (absent : column ∉ columns) :
    keys.lookup column = none := by
  rw [List.lookup_eq_none_iff]
  intro entry member
  have listed : entry.1 ∈ columns :=
    reflected.columns_eq ▸ List.mem_map.mpr ⟨entry, member, rfl⟩
  simpa using fun same : column = entry.1 => absent (same ▸ listed)

/-- Indexes are changed where a row has a key, and left alone where it has none. -/
theorem change (alter : KeyIndex → Key → KeyIndex) (reflected : Reflected keys columns keyAt)
    (kept : ∀ column place, place ≠ position → after column place = keyAt column place)
    (unchanged : ∀ column, found column = none → after column position = keyAt column position)
    (altered : ∀ column key index, found column = some key → index.Reflects (keyAt column) →
      (alter index key).Reflects (after column)) :
    Reflected (keys.map fun entry =>
      match found entry.1 with
      | some key => (entry.1, alter entry.2 key)
      | none => entry) columns after := by
  constructor
  · rw [← reflected.columns_eq, List.map_map]
    apply List.map_congr_left
    intro entry member
    cases key : found entry.1 <;> simp [key]
  · intro entry member
    obtain ⟨former, listed, rfl⟩ := List.mem_map.mp member
    have reflects := reflected.reflects former listed
    cases key : found former.1 with
    | none =>
        have same : after former.1 = keyAt former.1 := by
          funext place
          by_cases here : place = position
          · rw [here, unchanged _ key]
          · exact kept _ place here
        rwa [same]
    | some key' => exact altered _ _ _ key reflects

/-- A row comes to a position that was vacant. -/
theorem add (found : Nat → Option Key) (reflected : Reflected keys columns keyAt)
    (vacant : ∀ column, keyAt column position = none)
    (placed : ∀ column, after column position = found column)
    (kept : ∀ column place, place ≠ position → after column place = keyAt column place) :
    Reflected (keys.map fun entry =>
      match found entry.1 with
      | some key => (entry.1, entry.2.add key position)
      | none => entry) columns after :=
  reflected.change (fun index key => index.add key position) kept
    (fun column missing => by rw [placed, missing, vacant])
    fun column key index has reflects =>
      reflects.add (vacant column) (by rw [placed, has]) (kept column)

/-- The row at a position goes. -/
theorem remove (found : Nat → Option Key) (reflected : Reflected keys columns keyAt)
    (placed : ∀ column, keyAt column position = found column)
    (vacated : ∀ column, after column position = none)
    (kept : ∀ column place, place ≠ position → after column place = keyAt column place) :
    Reflected (keys.map fun entry =>
      match found entry.1 with
      | some key => (entry.1, entry.2.remove key position)
      | none => entry) columns after :=
  reflected.change (fun index key => index.remove key position) kept
    (fun column missing => by rw [vacated, placed, missing])
    fun column key index has reflects =>
      reflects.remove (by rw [placed, has]) (vacated column) (kept column)

end Reflected

end Coffer
