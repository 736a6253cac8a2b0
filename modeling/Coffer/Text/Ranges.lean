namespace Coffer.Text

/-! # Sets of characters

Character properties are given by tables of code point ranges. Each table holds
the characters beyond ASCII; the ASCII part of a property is stated as a rule of
its own, so that facts about plain SQL text need no table.
-/

/-- A set of characters, as inclusive ranges of code points. -/
abbrev Ranges := List (Nat × Nat)

/-- Whether some range of the set covers the character. -/
def Ranges.has (ranges : Ranges) (c : Char) : Bool :=
  ranges.any fun range => decide (range.1 ≤ c.toNat) && decide (c.toNat ≤ range.2)

def isAscii (c : Char) : Bool :=
  decide (c.toNat < 128)

/-- Whether the character is one of the ten ASCII digits. -/
def isDigit (c : Char) : Bool :=
  decide (48 ≤ c.toNat) && decide (c.toNat ≤ 57)

/-- Whether the character is one of the ASCII letters of either case. -/
def isLatinLetter (c : Char) : Bool :=
  (decide (65 ≤ c.toNat) && decide (c.toNat ≤ 90)) ||
    (decide (97 ≤ c.toNat) && decide (c.toNat ≤ 122))

end Coffer.Text
