namespace Coffer

/-! # Directories

Things held under names, in the order of the names. The order is part of the type, so
two directories with the same entries are the same directory.
-/

/-- Entries ordered by their names, of which no two are equal. -/
structure Directory (α : Type u) where
  entries : List (String × α)
  ordered : entries.Pairwise fun first second => first.1 < second.1

namespace Directory

variable {α : Type u}

instance [DecidableEq α] : DecidableEq (Directory α) := fun first second =>
  decidable_of_iff (first.entries = second.entries) (by cases first; cases second; simp)

def empty : Directory α := ⟨[], .nil⟩

instance : Inhabited (Directory α) := ⟨empty⟩

def names (directory : Directory α) : List String :=
  directory.entries.map Prod.fst

def get? (directory : Directory α) (name : String) : Option α :=
  (directory.entries.find? fun entry => entry.1 == name).map Prod.snd

def contains (directory : Directory α) (name : String) : Bool :=
  (directory.get? name).isSome

/-- Places an entry where its name belongs, instead of any entry of that name. -/
def place (name : String) (content : α) : List (String × α) → List (String × α)
  | [] => [(name, content)]
  | entry :: rest =>
    if name < entry.1 then (name, content) :: entry :: rest
    else if name = entry.1 then (name, content) :: rest
    else entry :: place name content rest

theorem mem_place {name : String} {content : α} {entries : List (String × α)}
    {entry : String × α} (member : entry ∈ place name content entries) :
    entry = (name, content) ∨ entry ∈ entries := by
  induction entries with
  | nil => simpa [place] using member
  | cons first rest ih =>
    simp only [place] at member
    split at member
    · simpa using member
    · split at member
      · rcases List.mem_cons.1 member with found | found
        · exact .inl found
        · exact .inr (List.mem_cons_of_mem _ found)
      · rcases List.mem_cons.1 member with found | found
        · exact .inr (found ▸ List.mem_cons_self)
        · exact (ih found).imp id (List.mem_cons_of_mem _)

theorem place_ordered (name : String) (content : α) {entries : List (String × α)}
    (ordered : entries.Pairwise fun first second => first.1 < second.1) :
    (place name content entries).Pairwise fun first second => first.1 < second.1 := by
  induction entries with
  | nil => simp [place]
  | cons first rest ih =>
    obtain ⟨below, restOrdered⟩ := List.pairwise_cons.1 ordered
    simp only [place]
    split
    · rename_i before
      refine List.pairwise_cons.2 ⟨fun entry member => ?_, ordered⟩
      rcases List.mem_cons.1 member with rfl | found
      · exact before
      · exact String.lt_trans before (below entry found)
    · split
      · rename_i same
        exact List.pairwise_cons.2 ⟨fun entry member => same ▸ below entry member, restOrdered⟩
      · rename_i notBefore different
        refine List.pairwise_cons.2 ⟨fun entry member => ?_, ih restOrdered⟩
        rcases mem_place member with rfl | found
        · have := String.not_lt.1 notBefore
          grind
        · exact below entry found

/-- The directory with an entry put under a name, instead of any that was there. -/
def insert (directory : Directory α) (name : String) (content : α) : Directory α :=
  ⟨place name content directory.entries, place_ordered name content directory.ordered⟩

def erase (directory : Directory α) (name : String) : Directory α :=
  ⟨directory.entries.filter fun entry => entry.1 != name, directory.ordered.filter _⟩

/-- The directory of entries put in one after another. -/
def ofList (entries : List (String × α)) : Directory α :=
  entries.foldl (fun directory entry => directory.insert entry.1 entry.2) empty

end Directory

end Coffer
