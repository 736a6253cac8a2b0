import Coffer.Text.Ranges

namespace Coffer.Text

/-! # Blanks

The Unicode property White_Space, and trimming by it.
-/

/-- The white space beyond ASCII. -/
def blanksBeyondAscii : Ranges := [
  (0x85, 0x85), (0xA0, 0xA0), (0x1680, 0x1680), (0x2000, 0x200A), (0x2028, 0x2029),
  (0x202F, 0x202F), (0x205F, 0x205F), (0x3000, 0x3000)
]

/-- Whether the character has the Unicode property White_Space. -/
def isBlank (c : Char) : Bool :=
  if isAscii c then c == ' ' || (decide (9 ≤ c.toNat) && decide (c.toNat ≤ 13))
  else blanksBeyondAscii.has c

/-- The characters without the blanks at both ends. -/
def trimmed (text : List Char) : List Char :=
  ((text.dropWhile isBlank).reverse.dropWhile isBlank).reverse

/-- The text without the blanks at both ends. -/
def trim (text : String) : String :=
  String.ofList (trimmed text.toList)

/-- Digits are no blanks. -/
theorem isBlank_of_isDigit {character : Char} (digit : isDigit character = true) :
    isBlank character = false := by
  simp only [isDigit, Bool.and_eq_true, decide_eq_true_eq] at digit
  have ascii : isAscii character = true := decide_eq_true (by omega)
  have space : (character == ' ') = false := by
    rw [beq_eq_false_iff_ne]
    rintro rfl
    exact absurd digit.1 (by decide)
  simp only [isBlank, ascii, space, if_true, Bool.false_or, Bool.and_eq_false_iff,
    decide_eq_false_iff_not]
  omega

/-- A text without blanks is trimmed. -/
theorem trimmed_of_not_isBlank {text : List Char}
    (plain : ∀ character ∈ text, isBlank character = false) : trimmed text = text := by
  have kept {text : List Char} (plain : ∀ character ∈ text, isBlank character = false) :
      text.dropWhile isBlank = text := by
    cases text with
    | nil => rfl
    | cons character rest =>
        rw [List.dropWhile_cons_of_neg]
        simp [plain character]
  rw [trimmed, kept plain, kept (by simpa using plain), List.reverse_reverse]

end Coffer.Text
