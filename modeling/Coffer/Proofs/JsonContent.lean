import Coffer.Proofs.JsonDocument

namespace Coffer.Json

/-! # Contents of documents

What is encoded in a document of the shapes in which data is kept is decoded again. Where the
decoder does not give back the content itself, it gives an image of it.
-/

variable {α β : Type} {encode : α → Json} {decode : Json → Option β} {image : α → β}
variable {name : String}

@[simp] theorem text?_ofText (text : String) : text? (ofText text) = some text :=
  textOf?_spelled

@[simp] theorem word?_ofText (text : String) : word? (ofText text) = some text :=
  textOf?_spelled

theorem option?_of_ne_null {document : Json} (present : document ≠ .null) :
    option? decode document = (decode document).map some := by
  cases document with
  | null => exact absurd rfl present
  | _ => rfl

theorem option?_ofOption {content : Option α}
    (decoded : ∀ found ∈ content, decode (encode found) = some (image found))
    (present : ∀ found ∈ content, encode found ≠ .null) :
    option? decode (ofOption encode content) = some (content.map image) := by
  cases content with
  | none => rfl
  | some found => rw [ofOption, option?_of_ne_null (present found rfl), decoded found rfl]; rfl

theorem option?_ofText {content : Option String} :
    option? text? (ofOption ofText content) = some content := by
  have decoded : option? text? (ofOption ofText content) = some (content.map id) :=
    option?_ofOption (fun text _ => text?_ofText text) nofun
  rwa [Option.map_id_fun, id] at decoded

theorem mapM_map {γ δ : Type} {step : γ → Option δ} {source : α → γ} {target : α → δ}
    {contents : List α} (steps : ∀ content ∈ contents, step (source content) = some (target content)) :
    (contents.map source).mapM step = some (contents.map target) := by
  induction contents with
  | nil => rfl
  | cons content others ih =>
      obtain ⟨first, later⟩ := List.forall_mem_cons.mp steps
      rw [List.map_cons, List.mapM_cons, first, ih later]
      rfl

theorem list?_ofList {contents : List α}
    (decoded : ∀ content ∈ contents, decode (encode content) = some (image content)) :
    list? decode (ofList encode contents) = some (contents.map image) :=
  mapM_map decoded

theorem list?_ofText {texts : List String} : list? text? (ofList ofText texts) = some texts := by
  have decoded : list? text? (ofList ofText texts) = some (texts.map id) :=
    list?_ofList fun text _ => text?_ofText text
  rwa [List.map_id_fun, id] at decoded

theorem entries?_ofMembers {entries : List (String × α)}
    (decoded : ∀ entry ∈ entries, decode (encode entry.2) = some (image entry.2)) :
    entries? decode (ofMembers (entries.map fun entry => (entry.1, encode entry.2))) =
      some (entries.map fun entry => (entry.1, image entry.2)) := by
  rw [ofMembers, entries?, List.map_map]
  refine mapM_map fun entry member => ?_
  simp [textOf?_spelled, decoded entry member]

namespace Record

variable {names : List String} {members : List (String × Json)}

theorem collect_spelled (known : ∀ member ∈ members, names.contains member.1 = true)
    (distinct : (members.map Prod.fst).Nodup) :
    collect names (members.map fun member => (spelled member.1, member.2)) = some members := by
  induction members with
  | nil => rfl
  | cons member others ih =>
      obtain ⟨knownFirst, knownOthers⟩ := List.forall_mem_cons.mp known
      obtain ⟨apart, distinctOthers⟩ := List.nodup_cons.mp distinct
      have fresh : (others.any fun field => field.1 == member.1) = false := by
        rw [List.any_eq_false]
        intro other among same
        exact apart (List.mem_map.mpr ⟨other, among, beq_iff_eq.mp same⟩)
      rw [List.map_cons, collect, textOf?_spelled, ih knownOthers distinctOthers]
      simp only [Option.bind_eq_bind, Option.bind_some, knownFirst, fresh, if_true,
        Bool.false_eq_true, if_false]

/-- A record is read with the fields that it was written with. -/
theorem ofJson?_ofMembers (named : members.map Prod.fst = names) (distinct : names.Nodup) :
    ofJson? names (ofMembers members) = some ⟨members, false⟩ := by
  subst named
  have known : ∀ member ∈ members, (members.map Prod.fst).contains member.1 = true := by
    intro member among
    rw [List.contains_iff_mem]
    exact List.mem_map_of_mem among
  rw [ofMembers, ofJson?, collect_spelled known distinct]
  rfl

end Record

end Coffer.Json
