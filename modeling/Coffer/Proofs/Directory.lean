import Coffer.Store.Directory

namespace Coffer.Directory

variable {α : Type u} {directory first second : Directory α}
variable {name other : String} {content former : α} {entry : String × α}

theorem pairwise_absurd {entries : List (String × α)} {left right : String × α}
    (ordered : entries.Pairwise fun first second => first.1 < second.1)
    (leftMember : left ∈ entries) (rightMember : right ∈ entries) (same : left.1 = right.1) :
    left = right := by
  induction entries with
  | nil => simp at leftMember
  | cons head rest ih =>
      obtain ⟨below, restOrdered⟩ := List.pairwise_cons.mp ordered
      rcases List.mem_cons.mp leftMember with rfl | leftRest <;>
        rcases List.mem_cons.mp rightMember with rfl | rightRest
      · rfl
      · have := below right rightRest
        rw [same] at this
        exact absurd this (String.lt_irrefl _)
      · have := below left leftRest
        rw [same] at this
        exact absurd this (String.lt_irrefl _)
      · exact ih restOrdered leftRest rightRest

theorem eq_of_same_name {left right : String × α} (leftMember : left ∈ directory.entries)
    (rightMember : right ∈ directory.entries) (same : left.1 = right.1) : left = right :=
  pairwise_absurd directory.ordered leftMember rightMember same

theorem get?_eq_some_iff :
    directory.get? name = some content ↔ (name, content) ∈ directory.entries := by
  constructor
  · intro found
    obtain ⟨entry, lookup, rfl⟩ := Option.map_eq_some_iff.mp found
    have named : entry.1 = name := by simpa using List.find?_some lookup
    rw [← named]
    exact List.mem_of_find?_eq_some lookup
  · intro member
    cases lookup : directory.entries.find? (fun entry => entry.1 == name) with
    | none => simpa using List.find?_eq_none.mp lookup _ member
    | some entry =>
        have named : entry.1 = name := by simpa using List.find?_some lookup
        have same := eq_of_same_name (List.mem_of_find?_eq_some lookup) member named
        simp [get?, lookup, same]

theorem get?_eq_none_iff :
    directory.get? name = none ↔ ∀ entry ∈ directory.entries, entry.1 ≠ name := by
  simp [get?]

theorem mem_place_iff {entries : List (String × α)}
    (ordered : entries.Pairwise fun first second => first.1 < second.1) :
    entry ∈ place name content entries ↔
      entry = (name, content) ∨ entry ∈ entries ∧ entry.1 ≠ name := by
  induction entries with
  | nil => simp [place]
  | cons head rest ih =>
      obtain ⟨below, restOrdered⟩ := List.pairwise_cons.mp ordered
      simp only [place]
      split
      · rename_i before
        have apart : ∀ entry ∈ head :: rest, entry.1 ≠ name := by
          intro entry member same
          rcases List.mem_cons.mp member with rfl | member
          · exact String.lt_irrefl _ (same ▸ before)
          · exact String.lt_irrefl _ (String.lt_trans before (same ▸ below entry member))
        simp only [List.mem_cons]
        constructor
        · rintro (rfl | member)
          · exact .inl rfl
          · exact .inr ⟨member, apart entry (by simpa using member)⟩
        · rintro (rfl | ⟨member, -⟩)
          · exact .inl rfl
          · exact .inr member
      · split
        · rename_i same
          have apart : ∀ entry ∈ rest, entry.1 ≠ name := by
            intro entry member found
            have := below entry member
            rw [found, same] at this
            exact String.lt_irrefl _ this
          simp only [List.mem_cons]
          constructor
          · rintro (rfl | member)
            · exact .inl rfl
            · exact .inr ⟨.inr member, apart entry member⟩
          · rintro (rfl | ⟨rfl | member, different⟩)
            · exact .inl rfl
            · exact absurd same.symm different
            · exact .inr member
        · rename_i different
          simp only [List.mem_cons, ih restOrdered]
          constructor
          · rintro (rfl | rfl | ⟨member, apart⟩)
            · exact .inr ⟨.inl rfl, fun same => different same.symm⟩
            · exact .inl rfl
            · exact .inr ⟨.inr member, apart⟩
          · rintro (rfl | ⟨rfl | member, apart⟩)
            · exact .inr (.inl rfl)
            · exact .inl rfl
            · exact .inr (.inr ⟨member, apart⟩)

theorem mem_insert_iff :
    entry ∈ (directory.insert name content).entries ↔
      entry = (name, content) ∨ entry ∈ directory.entries ∧ entry.1 ≠ name :=
  mem_place_iff directory.ordered

theorem mem_erase_iff :
    entry ∈ (directory.erase name).entries ↔ entry ∈ directory.entries ∧ entry.1 ≠ name := by
  simp [erase]

theorem get?_insert_self : (directory.insert name content).get? name = some content :=
  get?_eq_some_iff.mpr (mem_insert_iff.mpr (.inl rfl))

/-- A directory is no more than its entries: the order is that of their names. -/
theorem ext_mem (same : ∀ entry, entry ∈ first.entries ↔ entry ∈ second.entries) :
    first = second := by
  obtain ⟨entries, ordered⟩ := first
  obtain ⟨others, othersOrdered⟩ := second
  suffices entries = others by subst this; rfl
  simp only at same
  induction entries generalizing others with
  | nil =>
      cases others with
      | nil => rfl
      | cons head rest => simpa using same head
  | cons head rest ih =>
      cases others with
      | nil => simpa using same head
      | cons otherHead otherRest =>
          obtain ⟨below, restOrdered⟩ := List.pairwise_cons.mp ordered
          obtain ⟨otherBelow, otherRestOrdered⟩ := List.pairwise_cons.mp othersOrdered
          have heads : head = otherHead := by
            rcases List.mem_cons.mp ((same head).mp (by simp)) with equal | later
            · exact equal
            rcases List.mem_cons.mp ((same otherHead).mpr (by simp)) with equal | otherLater
            · exact equal.symm
            · exact absurd (String.lt_trans (otherBelow head later) (below otherHead otherLater))
                (String.lt_irrefl _)
          subst heads
          have apart : ∀ entry, entry ∈ rest → entry ≠ head := fun entry member equal =>
            String.lt_irrefl _ (equal ▸ below entry member)
          have otherApart : ∀ entry, entry ∈ otherRest → entry ≠ head := fun entry member equal =>
            String.lt_irrefl _ (equal ▸ otherBelow entry member)
          have rests : rest = otherRest := ih restOrdered otherRest otherRestOrdered fun entry => by
            have := same entry
            simp only [List.mem_cons] at this
            constructor
            · intro member
              exact (this.mp (.inr member)).resolve_left (apart entry member)
            · intro member
              exact (this.mpr (.inr member)).resolve_left (otherApart entry member)
          rw [rests]

theorem insert_insert :
    (directory.insert name former).insert name content = directory.insert name content := by
  apply ext_mem
  intro entry
  simp only [mem_insert_iff]
  constructor
  · rintro (rfl | ⟨rfl | ⟨member, -⟩, different⟩)
    · exact .inl rfl
    · exact absurd rfl different
    · exact .inr ⟨member, different⟩
  · rintro (rfl | ⟨member, different⟩)
    · exact .inl rfl
    · exact .inr ⟨.inr ⟨member, different⟩, different⟩

theorem insert_of_mem (member : (name, content) ∈ directory.entries) :
    directory.insert name content = directory := by
  apply ext_mem
  intro entry
  simp only [mem_insert_iff]
  constructor
  · rintro (rfl | ⟨other, -⟩)
    · exact member
    · exact other
  · intro other
    by_cases same : entry.1 = name
    · exact .inl (eq_of_same_name other member same)
    · exact .inr ⟨other, same⟩

theorem insert_erase : (directory.erase name).insert name content = directory.insert name content := by
  apply ext_mem
  intro entry
  simp only [mem_insert_iff, mem_erase_iff]
  constructor
  · rintro (rfl | ⟨⟨member, -⟩, different⟩)
    · exact .inl rfl
    · exact .inr ⟨member, different⟩
  · rintro (rfl | ⟨member, different⟩)
    · exact .inl rfl
    · exact .inr ⟨⟨member, different⟩, different⟩

theorem place_behind {entries : List (String × α)} (before : ∀ entry ∈ entries, entry.1 < name) :
    place name content entries = entries ++ [(name, content)] := by
  induction entries with
  | nil => rfl
  | cons first rest ih =>
      obtain ⟨firstBefore, restBefore⟩ := List.forall_mem_cons.mp before
      have notBelow : ¬ name < first.1 := String.lt_asymm firstBefore
      have different : name ≠ first.1 := fun same =>
        String.lt_irrefl name (same ▸ firstBefore : name < name)
      rw [place, if_neg notBelow, if_neg different, ih restBefore]
      rfl

theorem foldl_insert {entries : List (String × α)}
    (ordered : (directory.entries ++ entries).Pairwise fun first second => first.1 < second.1) :
    (entries.foldl (fun directory entry => directory.insert entry.1 entry.2) directory).entries =
      directory.entries ++ entries := by
  induction entries generalizing directory with
  | nil => simp
  | cons entry rest ih =>
      have before : ∀ other ∈ directory.entries, other.1 < entry.1 := fun other member =>
        (List.pairwise_append.mp ordered).2.2 other member entry List.mem_cons_self
      have placed : (directory.insert entry.1 entry.2).entries = directory.entries ++ [entry] :=
        place_behind before
      have still : ((directory.insert entry.1 entry.2).entries ++ rest).Pairwise
          fun first second => first.1 < second.1 := by
        rwa [placed, List.append_assoc]
      rw [List.foldl_cons, ih still, placed, List.append_assoc]
      rfl

/-- Entries in order are those of their directory. -/
theorem entries_ofList {entries : List (String × α)}
    (ordered : entries.Pairwise fun first second => first.1 < second.1) :
    (ofList entries).entries = entries :=
  @foldl_insert _ empty entries ordered

theorem ext_entries (same : first.entries = second.entries) : first = second := by
  cases first
  cases second
  cases same
  rfl

variable {β : Type u}

/-- The directory with other contents under the same names. -/
def mapped (image : α → β) (directory : Directory α) : Directory β :=
  ⟨directory.entries.map fun entry => (entry.1, image entry.2),
    List.pairwise_map.mpr directory.ordered⟩

theorem ofList_mapped {image : α → β} :
    ofList (directory.entries.map fun entry => (entry.1, image entry.2)) =
      directory.mapped image :=
  ext_entries (entries_ofList (directory.mapped image).ordered)

theorem get?_mapped {image : α → β} :
    (directory.mapped image).get? name = (directory.get? name).map image := by
  rw [get?, mapped, List.find?_map, get?, Option.map_map, Option.map_map]
  rfl

theorem contains_mapped {image : α → β} :
    (directory.mapped image).contains name = directory.contains name := by
  rw [contains, get?_mapped, Option.isSome_map, contains]

theorem mapped_id : directory.mapped id = directory :=
  ext_entries (List.map_id _)

end Coffer.Directory
