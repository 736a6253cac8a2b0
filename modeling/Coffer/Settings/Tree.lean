import Coffer.Number.Numeral
import Coffer.Number.RealText
import Coffer.Text.CaseFolding

namespace Coffer.Settings

/-! # What sources give

A source gives values by name, which can hold further values. Settings convert a value as
they need it, so that a number may be given as text and a switch as a number.
-/

inductive Tree where
  | null
  | boolean (truth : Bool)
  | integer (number : Int64)
  | real (number : Binary64)
  | text (content : String)
  | list (items : List Tree)
  | table (entries : List (String × Tree))

namespace Tree

/-- Words for a switch that is on, and for one that is off. -/
def onWords : List String := ["true", "on", "yes"]

def offWords : List String := ["false", "off", "no"]

/-- A text in lower case, as far as Latin letters go. -/
def lowered (content : String) : String :=
  String.ofList (content.toList.map Text.lowerLatin)

def text? : Tree → Option String
  | .boolean truth => some (if truth then "true" else "false")
  | .integer number => some (integerText number.toInt)
  | .real number => some (RealLayout.sql.text number)
  | .text content => some content
  | .null | .list _ | .table _ => none

/-- The switch that a value stands for. Every number but zero is on. -/
def boolean? : Tree → Option Bool
  | .boolean truth => some truth
  | .integer number => some (number != 0)
  | .real number => some (!number.equals .zero)
  | .text content =>
    let word := lowered content
    if word == "1" || onWords.contains word then some true
    else if word == "0" || offWords.contains word then some false
    else none
  | .null | .list _ | .table _ => none

def greatestCount : Nat := Nat.pow 2 64 - 1

/-- The count nearest to a real, where halves go up. -/
def nearestCount (number : Binary64) : Nat :=
  if number.isNan || number.negative then 0
  else if !number.isFinite then greatestCount
  else
    min greatestCount
      ((number.quanta + Binary64.quantaPerUnit / 2) / Binary64.quantaPerUnit)

/-- The count that a value stands for. -/
def count? : Tree → Option Nat
  | .boolean truth => some (if truth then 1 else 0)
  | .integer number => if number.toInt < 0 then none else some number.toInt.toNat
  | .real number => some (nearestCount number)
  | .text content =>
    let word := lowered content
    if onWords.contains word then some 1
    else if offWords.contains word then some 0
    else (Numeral.natural64 content.toList).toOption
  | .null | .list _ | .table _ => none

/-- The entries of a table. Anything else has none. -/
def entries : Tree → List (String × Tree)
  | .table entries => entries
  | _ => []

/-- The items of a list. Anything else has none. -/
def items : Tree → List Tree
  | .list items => items
  | _ => []

/-- The value of a name in a table. -/
def get? (tree : Tree) (name : String) : Option Tree :=
  tree.entries.lookup name

/-- Entries with a value put in under a name, in place of what is there. -/
def putEntry (name : String) (value : Tree) : List (String × Tree) → List (String × Tree)
  | [] => [(name, value)]
  | entry :: rest =>
    if entry.1 = name then (name, value) :: rest else entry :: putEntry name value rest

/-- A table with a value put in under a name. Anything else gives way to a new table. -/
def put (tree : Tree) (name : String) (value : Tree) : Tree :=
  .table (putEntry name value tree.entries)

/-- Items with a value put in at an index. Missing ones before it become null. -/
def putItem (value : Tree) : (index : Nat) → List Tree → List Tree
  | 0, [] => [value]
  | 0, _ :: rest => value :: rest
  | index + 1, [] => .null :: putItem value index []
  | index + 1, item :: rest => item :: putItem value index rest

mutual

/-- A value in place of another one, if there is one. A table goes into the former one, so
that entries of which it does not speak stay. An empty table changes nothing. -/
def onto (former : Option Tree) : (value : Tree) → Tree
  | .table entries => entriesOnto (former.getD (.table [])) entries
  | value => value

/-- A value with entries of a table put into it. -/
def entriesOnto (former : Tree) : (entries : List (String × Tree)) → Tree
  | [] => former
  | (name, value) :: rest =>
    entriesOnto (former.put name (onto (former.get? name) value)) rest

end

end Tree

end Coffer.Settings
