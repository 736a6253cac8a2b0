import Coffer.Encoding.Bytes

namespace Coffer

/-! # Bytes and what they encode -/

section Runs

variable {α : Type u} {test : α → Bool} {run rest : List α} {count : Nat}

/-- Whether a run of items that pass a test ends before a list. -/
def Stops (test : α → Bool) (rest : List α) : Prop :=
  ∀ item ∈ rest.head?, test item = false

theorem stops_cons {first : α} (none : test first = false) : Stops test (first :: rest) := by
  rintro _ ⟨⟩
  exact none

theorem exists_of_not_stops (continues : ¬ Stops test rest) :
    ∃ first more, rest = first :: more ∧ test first = true := by
  cases rest with
  | nil => exact absurd nofun continues
  | cons first more =>
      cases passes : test first with
      | true => exact ⟨first, more, rfl, passes⟩
      | false => exact absurd (stops_cons passes) continues

theorem Stops.take (stops : Stops test rest) : Stops test (rest.take count) := by
  intro item head
  cases rest with
  | nil => simp at head
  | cons first others =>
      cases count with
      | zero => simp at head
      | succ count => exact stops item head

theorem takeWhile_run (all : ∀ item ∈ run, test item = true) (stops : Stops test rest) :
    (run ++ rest).takeWhile test = run := by
  have none : rest.takeWhile test = [] := by
    cases rest with
    | nil => rfl
    | cons first others => simp [stops first rfl]
  rw [List.takeWhile_append_of_pos all, none, List.append_nil]

theorem dropWhile_run (all : ∀ item ∈ run, test item = true) (stops : Stops test rest) :
    (run ++ rest).dropWhile test = rest := by
  have all_rest : rest.dropWhile test = rest := by
    cases rest with
    | nil => rfl
    | cons first others => simp [stops first rfl]
  rw [List.dropWhile_append_of_pos all, all_rest]

end Runs

namespace Bytes

variable {text other : String} {characters : List Char} {character : Char} {bytes : Bytes}
variable {width length number : Nat}

theorem toList_loop {array : ByteArray} {position : Nat} {read : List UInt8} :
    ByteArray.toList.loop array position read =
      read.reverse ++ array.data.toList.drop position := by
  induction position, read using ByteArray.toList.loop.induct array with
  | case1 position read within ih =>
      have inside : position < array.data.toList.length := within
      have found : array.get! position = array.data.toList[position] := by
        change array.data[position]! = _
        rw [getElem!_pos array.data position within, Array.getElem_toList]
      rw [ByteArray.toList.loop, if_pos within, ih, found, List.reverse_cons, List.append_assoc,
        List.singleton_append, List.drop_eq_getElem_cons inside]
  | case2 position read beyond =>
      have outside : array.data.toList.length ≤ position := Nat.le_of_not_lt beyond
      rw [ByteArray.toList.loop, if_neg beyond, List.drop_eq_nil_of_le outside, List.append_nil]

theorem toList_eq_data (array : ByteArray) : array.toList = array.data.toList := by
  rw [ByteArray.toList, toList_loop]
  rfl

theorem ofText_ofList :
    ofText (String.ofList characters) = characters.flatMap String.utf8EncodeChar := by
  rw [ofText, toList_eq_data, String.toUTF8_eq_toByteArray, String.toByteArray_ofList,
    List.utf8Encode, List.toList_data_toByteArray]

theorem ofText_eq_flatMap : ofText text = text.toList.flatMap String.utf8EncodeChar := by
  rw [← ofText_ofList, String.ofList_toList]

theorem text?_ofText : text? (ofText text) = some text := by
  have same : (⟨(ofText text).toArray⟩ : ByteArray) = text.toByteArray := by
    rw [ofText, toList_eq_data, Array.toArray_toList]
    rfl
  rw [text?, same, String.fromUTF8?, dif_pos text.isValidUTF8]
  rfl

theorem utf8EncodeChar_ascii (plain : character.toNat < 128) :
    String.utf8EncodeChar character = [UInt8.ofNat character.toNat] := by
  have small : character.val.toNat ≤ 0x7f := Nat.le_of_lt_succ plain
  rw [String.utf8EncodeChar, if_pos small]
  rfl

theorem ofText_ascii (plain : ∀ character ∈ characters, character.toNat < 128) :
    ofText (String.ofList characters) =
      characters.map fun character => UInt8.ofNat character.toNat := by
  rw [ofText_ofList]
  induction characters with
  | nil => rfl
  | cons character others ih =>
      obtain ⟨first, later⟩ := List.forall_mem_cons.mp plain
      rw [List.flatMap_cons, utf8EncodeChar_ascii first, ih later]
      rfl

/-- The bytes of a character beyond ASCII are all beyond ASCII. -/
theorem le_of_mem_utf8EncodeChar (beyond : 128 ≤ character.toNat) :
    ∀ byte ∈ String.utf8EncodeChar character, 128 ≤ byte.toNat := by
  have large : ¬ character.val.toNat ≤ 0x7f := Nat.not_le_of_lt beyond
  rw [String.utf8EncodeChar, if_neg large]
  intro byte member
  split at member
  · simp only [List.mem_cons, List.not_mem_nil, or_false] at member
    rcases member with rfl | rfl <;> simp only [UInt8.toNat_ofNat'] <;> omega
  · split at member
    · simp only [List.mem_cons, List.not_mem_nil, or_false] at member
      rcases member with rfl | rfl | rfl <;> simp only [UInt8.toNat_ofNat'] <;> omega
    · simp only [List.mem_cons, List.not_mem_nil, or_false] at member
      rcases member with rfl | rfl | rfl | rfl <;> simp only [UInt8.toNat_ofNat'] <;> omega

theorem length_littleEndian : (littleEndian width number).length = width := by
  induction width generalizing number with
  | zero => rfl
  | succ width ih => rw [littleEndian, List.length_cons, ih]

theorem number_littleEndian :
    Bytes.number (littleEndian width number) = number % Nat.pow 256 width := by
  induction width generalizing number with
  | zero => simp [littleEndian, Bytes.number, Nat.mod_one]
  | succ width ih =>
      have low : (UInt8.ofNat (number % 256)).toNat = number % 256 := by
        rw [UInt8.toNat_ofNat']
        omega
      have power : Nat.pow 256 (width + 1) = 256 * Nat.pow 256 width :=
        Nat.mul_comm (Nat.pow 256 width) 256
      have split : number % Nat.pow 256 (width + 1) =
          number % 256 + 256 * (number / 256 % Nat.pow 256 width) := by
        rw [power, Nat.mod_mul]
      rw [littleEndian, Bytes.number, ih, low, split]

theorem number_littleEndian_of_lt (fits : number < Nat.pow 256 width) :
    Bytes.number (littleEndian width number) = number := by
  rw [number_littleEndian, Nat.mod_eq_of_lt fits]

theorem flatten_go (positive : 0 < length) {fuel : Nat} (enough : bytes.length ≤ fuel) :
    (runs.go length fuel bytes).flatten = bytes := by
  induction fuel generalizing bytes with
  | zero =>
      have none : bytes = [] := List.eq_nil_of_length_eq_zero (Nat.le_zero.mp enough)
      rw [none]
      rfl
  | succ fuel ih =>
      cases bytes with
      | nil => rfl
      | cons byte rest =>
          have shorter : ((byte :: rest).drop length).length ≤ fuel := by
            rw [List.length_drop, List.length_cons]
            rw [List.length_cons] at enough
            omega
          rw [runs.go, List.flatten_cons, ih shorter, List.take_append_drop]
          simp

/-- Runs put together are the bytes again. -/
theorem flatten_runs (positive : 0 < length) : (runs length bytes).flatten = bytes :=
  flatten_go positive (Nat.le_refl _)

theorem go_eq (positive : 0 < length) {fuel more : Nat} (enough : bytes.length ≤ fuel)
    (enoughMore : bytes.length ≤ more) : runs.go length fuel bytes = runs.go length more bytes := by
  induction fuel generalizing bytes more with
  | zero =>
      have none : bytes = [] := List.eq_nil_of_length_eq_zero (Nat.le_zero.mp enough)
      subst none
      cases more <;> rfl
  | succ fuel ih =>
      cases bytes with
      | nil => cases more <;> rfl
      | cons byte rest =>
          rw [List.length_cons] at enough enoughMore
          obtain ⟨more, rfl⟩ : ∃ less, more = less + 1 := ⟨more - 1, by omega⟩
          have shorter : ((byte :: rest).drop length).length ≤ rest.length := by
            rw [List.length_drop, List.length_cons]
            omega
          have others := @ih ((byte :: rest).drop length) more (by omega) (by omega)
          rw [runs.go, runs.go, others]
          · simp
          · simp

/-- The first run, and those of the bytes behind it. -/
theorem runs_eq_cons (positive : 0 < length) (nonempty : bytes ≠ []) :
    runs length bytes = bytes.take length :: runs length (bytes.drop length) := by
  obtain ⟨byte, rest, rfl⟩ := List.exists_cons_of_ne_nil nonempty
  have shorter : ((byte :: rest).drop length).length ≤ rest.length := by
    rw [List.length_drop, List.length_cons]
    omega
  rw [runs, List.length_cons, runs.go, go_eq positive shorter (Nat.le_refl _)]
  · rfl
  · simp

theorem length_runs {count : Nat} (positive : 0 < length) (whole : bytes.length = length * count) :
    (runs length bytes).length = count := by
  induction count generalizing bytes with
  | zero =>
      rw [List.eq_nil_of_length_eq_zero whole]
      rfl
  | succ count ih =>
      have nonempty : bytes ≠ [] := by
        rintro rfl
        exact absurd whole.symm (Nat.ne_of_gt (Nat.mul_pos positive (Nat.succ_pos count)))
      have shorter : (bytes.drop length).length = length * count := by
        rw [List.length_drop, whole, Nat.mul_succ, Nat.add_sub_cancel]
      rw [runs_eq_cons positive nonempty, List.length_cons, ih shorter]

theorem length_le_of_mem_go {fuel : Nat} :
    ∀ run ∈ runs.go length fuel bytes, run.length ≤ length := by
  induction fuel generalizing bytes with
  | zero => cases bytes <;> simp [runs.go]
  | succ fuel ih =>
      cases bytes with
      | nil => simp [runs.go]
      | cons byte rest =>
          rw [runs.go]
          · refine List.forall_mem_cons.mpr ⟨?_, ih⟩
            rw [List.length_take]
            omega
          · simp

theorem length_le_of_mem_runs : ∀ run ∈ runs length bytes, run.length ≤ length :=
  length_le_of_mem_go

end Bytes

end Coffer
