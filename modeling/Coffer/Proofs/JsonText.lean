import Coffer.Json.Content
import Coffer.Proofs.Encoding

namespace Coffer.Json

/-! # Texts in documents

A text is spelled between quotes: its characters one after another, each with a spelling of
its own that the readers take off as a whole.
-/

variable {bytes rest : Bytes} {byte mark a b c d : UInt8} {character : Char} {text : String}

/-- A byte that stands for itself in a string. -/
def Plain (byte : UInt8) : Prop := 32 ≤ byte ∧ byte ≠ 34 ∧ byte ≠ 92

theorem readString_plain (plain : Plain byte) :
    readString (byte :: rest) =
      (readString rest).map fun found => (byte :: found.1, found.2) := by
  obtain ⟨large, quote, slash⟩ := plain
  have small : ¬ byte < 32 := UInt8.not_lt.mpr large
  rw [readString.eq_def]
  split
  · simp_all
  · simp_all
  · simp_all
  · simp_all
  · rename_i head
    obtain ⟨rfl, rfl⟩ := List.cons.inj head
    rw [if_neg (by simp [small, slash])]

theorem unescaped?_plain (plain : Plain byte) :
    unescaped? (byte :: rest) = (unescaped? rest).map fun more => byte :: more := by
  obtain ⟨-, -, slash⟩ := plain
  rw [unescaped?.eq_def]
  split <;> simp_all

theorem readString_plains (plain : ∀ byte ∈ bytes, Plain byte) :
    readString (bytes ++ rest) =
      (readString rest).map fun found => (bytes ++ found.1, found.2) := by
  induction bytes with
  | nil => simp
  | cons byte more ih =>
      obtain ⟨first, others⟩ := List.forall_mem_cons.mp plain
      rw [List.cons_append, readString_plain first, ih others, Option.map_map]
      rfl

theorem unescaped?_plains (plain : ∀ byte ∈ bytes, Plain byte) :
    unescaped? (bytes ++ rest) = (unescaped? rest).map fun more => bytes ++ more := by
  induction bytes with
  | nil => simp
  | cons byte more ih =>
      obtain ⟨first, others⟩ := List.forall_mem_cons.mp plain
      rw [List.cons_append, unescaped?_plain first, ih others, Option.map_map]
      rfl

/-- A mark that escapes a character in a single byte. -/
def ShortMark (mark : UInt8) : Prop := isShortEscape mark = true ∧ mark ≠ 117

instance : Decidable (ShortMark mark) := inferInstanceAs (Decidable (_ ∧ _))

theorem readString_short (short : ShortMark mark) :
    readString (92 :: mark :: rest) =
      (readString rest).map fun found => (92 :: mark :: found.1, found.2) := by
  obtain ⟨escape, unit⟩ := short
  rw [readString, if_pos escape]
  exact fun _ _ _ _ _ isUnit _ => unit isUnit

theorem unescaped?_short (short : ShortMark mark) :
    unescaped? (92 :: mark :: rest) =
      (unescaped? rest).map fun more => shortEscape mark :: more := by
  obtain ⟨-, unit⟩ := short
  rw [unescaped?]
  · exact fun _ _ _ _ _ _ _ _ _ isUnit _ => unit isUnit
  · exact fun _ _ _ _ _ isUnit _ => unit isUnit

/-- Four digits of a number that is no half of a pair. -/
def UnitDigits (a b c d : UInt8) : Prop :=
  ([a, b, c, d].all fun digit => (hexDigit? digit).isSome) = true ∧
    isHighSurrogate (hexNumber a b c d) = false ∧ isLowSurrogate (hexNumber a b c d) = false

instance : Decidable (UnitDigits a b c d) := inferInstanceAs (Decidable (_ ∧ _))

theorem readString_unit (digits : UnitDigits a b c d) :
    readString (92 :: 117 :: a :: b :: c :: d :: rest) =
      (readString rest).map fun found => (92 :: 117 :: a :: b :: c :: d :: found.1, found.2) := by
  rw [readString, if_pos digits.1]

/-- Whether or not another unit follows, it is read on its own. -/
theorem unescaped?_unit (digits : UnitDigits a b c d) :
    unescaped? (92 :: 117 :: a :: b :: c :: d :: rest) =
      (unescaped? rest).map fun more => characterBytes (hexNumber a b c d) ++ more := by
  obtain ⟨-, high, low⟩ := digits
  by_cases paired : ∃ e f g h more, rest = 92 :: 117 :: e :: f :: g :: h :: more
  · obtain ⟨e, f, g, h, more, rfl⟩ := paired
    rw [unescaped?]
    simp only [high, low, Bool.false_eq_true, if_false]
  · rw [unescaped?]
    · simp only [high, low, Bool.or_false, Bool.false_eq_true, if_false]
    · exact fun e f g h more same => paired ⟨e, f, g, h, more, same⟩

/-- The bytes that spell a character. -/
def spelledCharacter (character : Char) : Bytes :=
  (escaped character).flatMap String.utf8EncodeChar

theorem spelled_eq_flatMap : spelled text = text.toList.flatMap spelledCharacter := by
  rw [spelled, Bytes.ofText_ofList, List.flatMap_assoc]
  rfl

/-- A character is spelled as itself, with a mark, or with four digits. -/
inductive Spelling : Char → Bytes → Prop where
  | plain {character : Char} (plain : ∀ byte ∈ String.utf8EncodeChar character, Plain byte) :
      Spelling character (String.utf8EncodeChar character)
  | short {character : Char} {mark : UInt8} (short : ShortMark mark)
      (stands : [shortEscape mark] = String.utf8EncodeChar character) :
      Spelling character [92, mark]
  | unit {character : Char} {a b c d : UInt8} (digits : UnitDigits a b c d)
      (stands : characterBytes (hexNumber a b c d) = String.utf8EncodeChar character) :
      Spelling character [92, 117, a, b, c, d]

theorem Spelling.of_toNat {code : Nat} (same : character.toNat = code)
    (spelling : Spelling (Char.ofNat code) bytes) : Spelling character bytes := by
  rwa [← same, Char.ofNat_toNat] at spelling

/-- Every control character without a mark has four digits. -/
theorem control_digits : ∀ code : Fin 32,
    UnitDigits 48 48 (UInt8.ofNat (lowerDigit (code.val / 16)).toNat)
      (UInt8.ofNat (lowerDigit (code.val % 16)).toNat) ∧
    hexNumber 48 48 (UInt8.ofNat (lowerDigit (code.val / 16)).toNat)
      (UInt8.ofNat (lowerDigit (code.val % 16)).toNat) = code.val ∧
    (lowerDigit (code.val / 16)).toNat < 128 ∧ (lowerDigit (code.val % 16)).toNat < 128 := by
  decide

theorem control_spelling (control : character.toNat < 32) :
    Spelling character (['\\', 'u', '0', '0', lowerDigit (character.toNat / 16),
      lowerDigit (character.toNat % 16)].flatMap String.utf8EncodeChar) := by
  obtain ⟨digits, number, high, low⟩ := control_digits ⟨character.toNat, control⟩
  simp only [List.flatMap_cons, List.flatMap_nil, List.append_nil, Bytes.utf8EncodeChar_ascii high,
    Bytes.utf8EncodeChar_ascii low]
  refine .unit digits ?_
  change characterBytes (hexNumber 48 48 _ _) = _
  rw [number, characterBytes, Bytes.ofText_ofList, Char.ofNat_toNat, List.flatMap_cons,
    List.flatMap_nil, List.append_nil]

theorem plain_of_printed (printed : 32 ≤ character.toNat) (quote : character ≠ '\x22')
    (slash : character ≠ '\\') : ∀ byte ∈ String.utf8EncodeChar character, Plain byte := by
  intro byte member
  rcases Nat.lt_or_ge character.toNat 128 with ascii | beyond
  · rw [Bytes.utf8EncodeChar_ascii ascii, List.mem_singleton] at member
    subst member
    have value : (UInt8.ofNat character.toNat).toNat = character.toNat := by
      rw [UInt8.toNat_ofNat']
      omega
    have other {letter : Char} (different : character ≠ letter) :
        character.toNat ≠ letter.toNat := fun same => different (Char.toNat_inj.mp same)
    have notQuote := other quote
    have notSlash := other slash
    refine ⟨UInt8.le_iff_toNat_le.mpr ?_, fun same => ?_, fun same => ?_⟩
    · rwa [value]
    · rw [← value, same] at notQuote
      exact notQuote rfl
    · rw [← value, same] at notSlash
      exact notSlash rfl
  · have large := Bytes.le_of_mem_utf8EncodeChar beyond byte member
    refine ⟨UInt8.le_iff_toNat_le.mpr ?_, fun same => ?_, fun same => ?_⟩
    · exact Nat.le_trans (by decide) large
    · rw [same] at large
      exact absurd large (by decide)
    · rw [same] at large
      exact absurd large (by decide)

theorem spelling (character : Char) : Spelling character (spelledCharacter character) := by
  have marked {code : Nat} {mark : UInt8} (same : character.toNat = code)
      (short : ShortMark mark)
      (stands : [shortEscape mark] = String.utf8EncodeChar (Char.ofNat code)) :
      Spelling character [92, mark] := .of_toNat same (.short short stands)
  unfold spelledCharacter escaped
  split
  · rename_i same
    subst same
    exact .short (by decide) (by decide)
  split
  · rename_i same
    subst same
    exact .short (by decide) (by decide)
  split
  · rename_i same
    exact marked same (by decide) (by decide)
  split
  · rename_i same
    exact marked same (by decide) (by decide)
  split
  · rename_i same
    exact marked same (by decide) (by decide)
  split
  · rename_i same
    exact marked same (by decide) (by decide)
  split
  · rename_i same
    exact marked same (by decide) (by decide)
  split
  · rename_i control
    exact control_spelling control
  · rename_i quote slash _ _ _ _ _ printed
    rw [List.flatMap_cons, List.flatMap_nil, List.append_nil]
    exact .plain (plain_of_printed (Nat.le_of_not_lt printed) quote slash)

theorem readString_character :
    readString (spelledCharacter character ++ rest) =
      (readString rest).map fun found => (spelledCharacter character ++ found.1, found.2) := by
  have spelled := spelling character
  generalize spelledCharacter character = spelledBytes at spelled ⊢
  cases spelled with
  | plain plain => exact readString_plains plain
  | short short stands => exact readString_short short
  | unit digits stands => exact readString_unit digits

theorem unescaped?_character :
    unescaped? (spelledCharacter character ++ rest) =
      (unescaped? rest).map fun more => String.utf8EncodeChar character ++ more := by
  have spelled := spelling character
  generalize spelledCharacter character = spelledBytes at spelled ⊢
  cases spelled with
  | plain plain => exact unescaped?_plains plain
  | short short stands =>
      rw [← stands]
      exact unescaped?_short short
  | unit digits stands =>
      rw [← stands]
      exact unescaped?_unit digits

theorem readString_characters {characters : List Char} :
    readString (characters.flatMap spelledCharacter ++ 34 :: rest) =
      some (characters.flatMap spelledCharacter, rest) := by
  induction characters with
  | nil => rfl
  | cons character others ih =>
      rw [List.flatMap_cons, List.append_assoc, readString_character, ih]
      rfl

/-- The spelling of a text ends where its closing quote stands. -/
theorem readString_spelled : readString (spelled text ++ 34 :: rest) = some (spelled text, rest) := by
  rw [spelled_eq_flatMap]
  exact readString_characters

theorem unescaped?_characters {characters : List Char} :
    unescaped? (characters.flatMap spelledCharacter) =
      some (characters.flatMap String.utf8EncodeChar) := by
  induction characters with
  | nil => rfl
  | cons character others ih =>
      rw [List.flatMap_cons, unescaped?_character, ih]
      rfl

/-- A spelling stands for the text it is the spelling of. -/
theorem textOf?_spelled : textOf? (spelled text) = some text := by
  rw [textOf?, spelled_eq_flatMap, unescaped?_characters, ← Bytes.ofText_eq_flatMap,
    Option.bind_some, Bytes.text?_ofText]

/-- The spelling of a character takes six bytes at most. -/
theorem length_spelledCharacter_le : (spelledCharacter character).length ≤ 6 := by
  have spelled := spelling character
  generalize spelledCharacter character = spelledBytes at spelled ⊢
  cases spelled with
  | plain plain =>
      rw [String.length_utf8EncodeChar]
      exact Nat.le_trans character.utf8Size_le_four (by decide)
  | short short stands => exact Nat.le_add_right 2 4
  | unit digits stands => exact Nat.le_refl 6

theorem length_spelled_le : (spelled text).length ≤ 6 * text.toList.length := by
  rw [spelled_eq_flatMap]
  generalize text.toList = characters
  induction characters with
  | nil => exact Nat.le_refl 0
  | cons character others ih =>
      have first : (spelledCharacter character).length ≤ 6 := length_spelledCharacter_le
      rw [List.flatMap_cons, List.length_append, List.length_cons]
      omega

end Coffer.Json
