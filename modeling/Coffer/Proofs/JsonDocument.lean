import Coffer.Proofs.JsonNumber
import Coffer.Proofs.JsonText

namespace Coffer.Json

/-! # Documents that read back

A document that is written from texts, numbers and other documents is read as itself.
-/

variable {document : Json} {bytes rest spelling : Bytes} {fuel : Nat} {text : String}
variable {items : List Json} {members : List (Bytes × Json)}

/-- Members with names that are spelled as texts. -/
def Named (members : List (Bytes × Json)) : Prop :=
  ∀ member ∈ members, ∃ name, member.1 = spelled name

/-- Documents with texts and numbers as they are spelled here. -/
inductive Readable : Json → Prop where
  | null : Readable .null
  | boolean (truth : Bool) : Readable (.boolean truth)
  | number {spelling : Bytes} (valid : Numeric spelling) : Readable (.number spelling)
  | string (text : String) : Readable (.string (spelled text))
  | array {items : List Json} (contents : ∀ item ∈ items, Readable item) :
      Readable (.array items)
  | object {members : List (Bytes × Json)}
      (named : Named members) (contents : ∀ member ∈ members, Readable member.2) :
      Readable (.object members)

/-- A byte that a document starts with. -/
def Opens (byte : UInt8) : Prop :=
  isBlank byte = false ∧ byte ≠ 93 ∧ byte ≠ 125

instance {byte : UInt8} : Decidable (Opens byte) := inferInstanceAs (Decidable (_ ∧ _))

theorem skipBlanks_of_opens {byte : UInt8} (opens : Opens byte) :
    skipBlanks (byte :: rest) = byte :: rest := by
  rw [skipBlanks, List.dropWhile_cons_of_neg (by simp [opens.1])]

theorem skipBlanks_quote : skipBlanks (34 :: rest) = 34 :: rest :=
  skipBlanks_of_opens (by decide)

theorem skipBlanks_colon : skipBlanks (58 :: rest) = 58 :: rest :=
  skipBlanks_of_opens (by decide)

theorem skipBlanks_comma : skipBlanks (44 :: rest) = 44 :: rest :=
  skipBlanks_of_opens (by decide)

theorem Numeric.head (valid : Numeric bytes) :
    ∃ byte more, bytes = byte :: more ∧ (byte = 45 ∨ isDigit byte = true) := by
  cases valid with
  | positive valid =>
      obtain ⟨byte, more, form, digit⟩ := valid.head_digit
      exact ⟨byte, more, form, .inr digit⟩
  | negative valid => exact ⟨45, _, rfl, .inl rfl⟩

theorem between_of_isDigit {byte : UInt8} (digit : isDigit byte = true) :
    48 ≤ byte.toNat ∧ byte.toNat ≤ 57 := by
  simpa [isDigit, UInt8.le_iff_toNat_le] using digit

theorem opens_of_number {byte : UInt8} (number : byte = 45 ∨ isDigit byte = true) :
    Opens byte := by
  rcases number with rfl | digit
  · exact ⟨rfl, by decide, by decide⟩
  · have between := between_of_isDigit digit
    have other {mark : UInt8} (outside : mark.toNat < 48 ∨ 57 < mark.toNat) : byte ≠ mark := by
      rintro rfl
      omega
    refine ⟨?_, other (.inr (by decide)), other (.inr (by decide))⟩
    simp only [isBlank, Bool.or_eq_false_iff, beq_eq_false_iff_ne]
    exact ⟨⟨⟨other (.inl (by decide)), other (.inl (by decide))⟩, other (.inl (by decide))⟩,
      other (.inl (by decide))⟩

theorem ascii_eq_flatMap : ascii text = text.toList.flatMap String.utf8EncodeChar :=
  Bytes.ofText_eq_flatMap

theorem ascii_null : ascii "null" = 110 :: ascii "ull" := by
  rw [ascii_eq_flatMap, ascii_eq_flatMap]
  decide

theorem ascii_true : ascii "true" = 116 :: ascii "rue" := by
  rw [ascii_eq_flatMap, ascii_eq_flatMap]
  decide

theorem ascii_false : ascii "false" = 102 :: ascii "alse" := by
  rw [ascii_eq_flatMap, ascii_eq_flatMap]
  decide

theorem Readable.head (readable : Readable document) :
    ∃ byte more, document.written = byte :: more ∧ Opens byte := by
  cases readable with
  | null => exact ⟨110, ascii "ull", by rw [written, ascii_null], by decide⟩
  | boolean truth =>
      cases truth with
      | false => exact ⟨102, ascii "alse", by rw [written, ascii_false], by decide⟩
      | true => exact ⟨116, ascii "rue", by rw [written, ascii_true], by decide⟩
  | number valid =>
      obtain ⟨byte, more, form, number⟩ := valid.head
      exact ⟨byte, more, by rw [written, form], opens_of_number number⟩
  | string text => exact ⟨34, _, by rw [written, quoted], by decide⟩
  | array contents => exact ⟨91, _, by rw [written], by decide⟩
  | object named contents => exact ⟨123, _, by rw [written], by decide⟩

theorem readValue_number (valid : Numeric bytes) (ends : Ends rest) :
    readValue (fuel + 1) (bytes ++ rest) = some (.number bytes, rest) := by
  obtain ⟨byte, more, rfl, number⟩ := valid.head
  have other {mark : UInt8} (letter : mark ≠ 45 ∧ isDigit mark = false) : byte ≠ mark := by
    rintro rfl
    simp [letter] at number
  have read := readNumber_append valid ends
  rw [readValue, List.cons_append, skipBlanks_of_opens (opens_of_number number)]
  rw [List.cons_append] at read
  split
  · rename_i head
    exact absurd (List.cons.inj head).1 (other (by decide))
  · rename_i head
    exact absurd (List.cons.inj head).1 (other (by decide))
  · rename_i head
    exact absurd (List.cons.inj head).1 (other (by decide))
  · rename_i head
    exact absurd (List.cons.inj head).1 (other (by decide))
  · rename_i head
    exact absurd (List.cons.inj head).1 (other (by decide))
  · rename_i head
    exact absurd (List.cons.inj head).1 (other (by decide))
  · rw [read]
    rfl

theorem readValue_string :
    readValue (fuel + 1) (quoted (spelled text) ++ rest) = some (.string (spelled text), rest) := by
  have form : quoted (spelled text) ++ rest = 34 :: (spelled text ++ 34 :: rest) := by
    simp [quoted]
  rw [form, readValue, skipBlanks_of_opens (by decide)]
  simp only [readString_spelled]
  rfl

theorem afterWord?_append {word : Bytes} : afterWord? word (word ++ rest) = some rest := by
  simp [afterWord?]

theorem readValue_null : readValue (fuel + 1) (written .null ++ rest) = some (.null, rest) := by
  rw [written, ascii_null, List.cons_append, readValue, skipBlanks_of_opens (by decide)]
  simp only [afterWord?_append]
  rfl

theorem readValue_boolean {truth : Bool} :
    readValue (fuel + 1) (written (.boolean truth) ++ rest) = some (.boolean truth, rest) := by
  cases truth with
  | false =>
      rw [written, ascii_false, List.cons_append, readValue, skipBlanks_of_opens (by decide)]
      simp only [afterWord?_append]
      rfl
  | true =>
      rw [written, ascii_true, List.cons_append, readValue, skipBlanks_of_opens (by decide)]
      simp only [afterWord?_append]
      rfl

/-- A document is read as itself, given fuel for its bytes. -/
def Reads (document : Json) : Prop :=
  ∀ fuel rest, document.written.length ≤ fuel → Ends rest →
    readValue fuel (document.written ++ rest) = some (document, rest)

theorem ends_comma : Ends (44 :: rest) := by
  intro byte head
  exact .inl (Option.some.inj head).symm

theorem ends_bracket : Ends (93 :: rest) := by
  intro byte head
  exact .inr (.inl (Option.some.inj head).symm)

theorem ends_brace : Ends (125 :: rest) := by
  intro byte head
  exact .inr (.inr (Option.some.inj head).symm)

theorem writtenItems_cons {first second : Json} :
    writtenItems (first :: second :: items) =
      first.written ++ 44 :: writtenItems (second :: items) := by
  rw [writtenItems]
  simp

theorem writtenMembers_cons {first second : Bytes × Json} :
    writtenMembers (first :: second :: members) =
      quoted first.1 ++ 58 :: (first.2.written ++ 44 :: writtenMembers (second :: members)) := by
  rw [writtenMembers]
  simp

theorem readItems_append (nonempty : items ≠ []) (reads : ∀ item ∈ items, Reads item)
    (enough : (writtenItems items).length + 1 ≤ fuel) :
    readItems fuel (writtenItems items ++ 93 :: rest) = some (items, rest) := by
  induction items generalizing fuel with
  | nil => exact absurd rfl nonempty
  | cons item others ih =>
      obtain ⟨first, later⟩ := List.forall_mem_cons.mp reads
      obtain ⟨fuel, rfl⟩ : ∃ less, fuel = less + 1 := ⟨fuel - 1, by omega⟩
      cases others with
      | nil =>
          rw [writtenItems] at enough ⊢
          have read := first fuel (93 :: rest) (by omega) ends_bracket
          rw [readItems, read]
          rfl
      | cons second more =>
          rw [writtenItems_cons] at enough ⊢
          rw [List.length_append, List.length_cons] at enough
          have read := first fuel (44 :: (writtenItems (second :: more) ++ 93 :: rest)) (by omega)
            ends_comma
          have rest := ih (List.cons_ne_nil _ _) later (show _ + 1 ≤ fuel by omega)
          rw [List.append_assoc, List.cons_append, readItems, read]
          simp only [Option.bind_eq_bind, Option.bind_some, skipBlanks_comma, rest]

theorem readMembers_append (nonempty : members ≠ []) (named : Named members)
    (reads : ∀ member ∈ members, Reads member.2)
    (enough : (writtenMembers members).length + 1 ≤ fuel) :
    readMembers fuel (writtenMembers members ++ 125 :: rest) = some (members, rest) := by
  induction members generalizing fuel with
  | nil => exact absurd rfl nonempty
  | cons member others ih =>
      obtain ⟨spelling, content⟩ := member
      obtain ⟨first, later⟩ := List.forall_mem_cons.mp reads
      obtain ⟨⟨name, spells⟩, names⟩ := List.forall_mem_cons.mp named
      obtain rfl : spelling = spelled name := spells
      obtain ⟨fuel, rfl⟩ : ∃ less, fuel = less + 1 := ⟨fuel - 1, by omega⟩
      have opened {more : Bytes} : quoted (spelled name) ++ more =
          34 :: (spelled name ++ 34 :: more) := by simp [quoted]
      cases others with
      | nil =>
          rw [writtenMembers, List.length_append, List.length_cons] at enough
          have read := first fuel (125 :: rest) (by simp only at *; omega) ends_brace
          rw [writtenMembers, List.append_assoc, List.cons_append, opened, readMembers]
          simp only [skipBlanks_quote, readString_spelled, Option.bind_eq_bind, Option.bind_some,
            skipBlanks_colon, read]
          rfl
      | cons second more =>
          rw [writtenMembers_cons, List.length_append, List.length_cons, List.length_append,
            List.length_cons] at enough
          have read := first fuel (44 :: (writtenMembers (second :: more) ++ 125 :: rest))
            (by simp only at *; omega) ends_comma
          have rest := ih (List.cons_ne_nil _ _) names later (show _ + 1 ≤ fuel by omega)
          rw [writtenMembers_cons, List.append_assoc, List.cons_append, opened, readMembers]
          simp only [skipBlanks_quote, readString_spelled, Option.bind_eq_bind, Option.bind_some,
            skipBlanks_colon, List.append_assoc, List.cons_append, read, skipBlanks_comma, rest]

theorem writtenItems_head (nonempty : items ≠ []) (readable : ∀ item ∈ items, Readable item) :
    ∃ byte more, writtenItems items = byte :: more ∧ Opens byte := by
  obtain ⟨item, others, rfl⟩ := List.exists_cons_of_ne_nil nonempty
  obtain ⟨byte, more, form, opens⟩ := (readable item List.mem_cons_self).head
  cases others with
  | nil => exact ⟨byte, more, by rw [writtenItems, form], opens⟩
  | cons second others => exact ⟨byte, _, by rw [writtenItems_cons, form, List.cons_append], opens⟩

theorem writtenMembers_head (nonempty : members ≠ []) :
    ∃ more, writtenMembers members = 34 :: more := by
  obtain ⟨member, others, rfl⟩ := List.exists_cons_of_ne_nil nonempty
  cases others with
  | nil => exact ⟨_, by rw [writtenMembers, quoted, List.cons_append]⟩
  | cons second others => exact ⟨_, by rw [writtenMembers_cons, quoted, List.cons_append]⟩

theorem array_reads (readable : ∀ item ∈ items, Readable item)
    (reads : ∀ item ∈ items, Reads item) : Reads (.array items) := by
  intro fuel rest enough _
  rw [written, List.length_cons, List.length_append, List.length_singleton] at enough
  obtain ⟨fuel, rfl⟩ : ∃ less, fuel = less + 1 := ⟨fuel - 1, by omega⟩
  rw [written, List.cons_append, List.append_assoc, List.singleton_append, readValue,
    skipBlanks_of_opens (by decide)]
  by_cases nonempty : items = []
  · subst nonempty
    rw [writtenItems]
    rfl
  · obtain ⟨byte, more, form, opens⟩ := writtenItems_head nonempty readable
    have read := @readItems_append rest fuel items nonempty reads (by omega)
    rw [form, List.cons_append] at read ⊢
    simp only [skipBlanks_of_opens opens]
    split
    · rename_i head
      exact absurd (List.cons.inj head).1 opens.2.1
    · rw [read]
      rfl

theorem object_reads (named : Named members) (reads : ∀ member ∈ members, Reads member.2) :
    Reads (.object members) := by
  intro fuel rest enough _
  rw [written, List.length_cons, List.length_append, List.length_singleton] at enough
  obtain ⟨fuel, rfl⟩ : ∃ less, fuel = less + 1 := ⟨fuel - 1, by omega⟩
  rw [written, List.cons_append, List.append_assoc, List.singleton_append, readValue,
    skipBlanks_of_opens (by decide)]
  by_cases nonempty : members = []
  · subst nonempty
    rw [writtenMembers]
    rfl
  · obtain ⟨more, form⟩ := writtenMembers_head nonempty
    have read := @readMembers_append rest fuel members nonempty named reads (by omega)
    rw [form, List.cons_append] at read ⊢
    simp only [skipBlanks_quote]
    split
    · rename_i head
      cases (List.cons.inj head).1
    · rw [read]
      rfl

/-- A document without parts takes one step. -/
theorem reads_of_step (readable : Readable document)
    (step : ∀ fuel rest, Ends rest →
      readValue (fuel + 1) (document.written ++ rest) = some (document, rest)) :
    Reads document := by
  intro fuel rest enough ends
  obtain ⟨byte, more, form, -⟩ := readable.head
  rw [form, List.length_cons] at enough
  obtain ⟨fuel, rfl⟩ : ∃ less, fuel = less + 1 := ⟨fuel - 1, by omega⟩
  exact step fuel rest ends

/-- Documents of the readable forms are read as themselves. -/
theorem Readable.reads (readable : Readable document) : Reads document := by
  induction readable with
  | null => exact reads_of_step .null fun _ _ _ => readValue_null
  | boolean truth => exact reads_of_step (.boolean truth) fun _ _ _ => readValue_boolean
  | number valid =>
      refine reads_of_step (.number valid) fun fuel rest ends => ?_
      rw [written]
      exact readValue_number valid ends
  | string text =>
      refine reads_of_step (.string text) fun fuel rest _ => ?_
      rw [written]
      exact readValue_string
  | array contents ih => exact array_reads contents ih
  | object named contents ih => exact object_reads named ih

theorem ofBytes?_written (readable : Readable document) :
    ofBytes? document.written = some document := by
  have read := readable.reads (2 * document.written.length + 2) [] (by omega) nofun
  rw [List.append_nil] at read
  rw [ofBytes?, read]
  rfl

variable {α β : Type} {encode : α → Json} {decode : Json → Option α}

theorem readable_ofInt (number : Int) : Readable (ofInt number) :=
  .number (numeric_integerText number)

theorem readable_ofReal (x : Binary64) : Readable (ofReal x) := by
  rw [ofReal]
  split
  · rename_i finite
    exact .number (numeric_document finite)
  · exact .null

theorem readable_ofOption {content : Option α} (readable : ∀ found, Readable (encode found)) :
    Readable (ofOption encode content) := by
  cases content with
  | none => exact .null
  | some found => exact readable found

theorem readable_ofList {contents : List α} (readable : ∀ found, Readable (encode found)) :
    Readable (ofList encode contents) := by
  refine .array fun item member => ?_
  obtain ⟨content, -, rfl⟩ := List.mem_map.mp member
  exact readable content

theorem readable_ofMembers {members : List (String × Json)}
    (readable : ∀ member ∈ members, Readable member.2) : Readable (ofMembers members) := by
  refine .object (fun member among => ?_) fun member among => ?_
  · obtain ⟨named, -, rfl⟩ := List.mem_map.mp among
    exact ⟨named.1, rfl⟩
  · obtain ⟨named, inside, rfl⟩ := List.mem_map.mp among
    exact readable named inside

end Coffer.Json
