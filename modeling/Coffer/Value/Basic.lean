import Coffer.Language.Expression
import Coffer.Number.Numeral
import Coffer.Number.RealText
import Coffer.Text.Blank
import Coffer.Value.ColumnType

namespace Coffer

/-! # Values -/

/-- What a field of a row holds. -/
inductive Value where
  | null
  | integer (number : Int64)
  | real (number : Binary64)
  | text (content : String)
  deriving DecidableEq, Repr, Inhabited

namespace Value

def isNull : Value → Bool
  | .null => true
  | _ => false

def type? : Value → Option ColumnType
  | .null => none
  | .integer _ => some .integer
  | .real _ => some .real
  | .text _ => some .text

def written : Value → String
  | .null => "NULL"
  | .integer number => integerText number.toInt
  | .real number => RealLayout.sql.text number
  | .text content => content

/-- Equality of values of one type, under which the real zeros are one. -/
def same : Value → Value → Bool
  | .real first, .real second => first.equals second
  | first, second => first == second

/-- The finite real a text spells, blanks around it aside. -/
def realOfText? (content : String) : Option Binary64 :=
  (Numeral.real? (Text.trimmed content.toList)).filter Binary64.isFinite

/-- The 64-bit integer a text spells, blanks around it aside. -/
def integerOfText? (content : String) : Option Int64 :=
  (Numeral.int64 (Text.trimmed content.toList)).toOption

/-- The real a value stands for, if it is a number or text that spells one. -/
def number? : Value → Option Binary64
  | .null => none
  | .integer number => some (.ofInt number.toInt)
  | .real number => some number
  | .text content => realOfText? content

/-- The value of a literal. Truth values are kept as one and zero. -/
def ofLiteral : Language.Literal → Value
  | .null => .null
  | .boolean truth => .integer (if truth then 1 else 0)
  | .integer number => .integer number
  | .real number => .real number
  | .string content => .text content

end Value

end Coffer
