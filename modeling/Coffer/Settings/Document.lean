import Coffer.Settings.Tree
import Coffer.Yaml.Reading

namespace Coffer.Settings.Document

/-! # Documents of settings

A source of settings can be a document. Infinite and undefined reals that begin with a point
cannot be converted, and a document with one of them gives nothing at all.
-/

mutual

def tree? : Yaml.Node → Option Tree
  | .invalid | .null => some .null
  | .boolean truth => some (.boolean truth)
  | .integer number => some (.integer number)
  | .real text => (Numeral.real? text.toList).map .real
  | .text content => some (.text content)
  | .sequence items => (list? items).map .list
  | .mapping entries => (table? entries).map .table

def list? : List Yaml.Node → Option (List Tree)
  | [] => some []
  | item :: rest => do
    let tree ← tree? item
    let trees ← list? rest
    some (tree :: trees)

def table? : List (String × Yaml.Node) → Option (List (String × Tree))
  | [] => some []
  | (name, node) :: rest => do
    let tree ← tree? node
    let entries ← table? rest
    some ((name, tree) :: entries)

end

/-- The values by name that a document gives. One that is no mapping gives none. -/
def ofText? (text : String) : Option (List (String × Tree)) := do
  match ← Yaml.document? text with
  | none => some []
  | some node => (tree? node).map Tree.entries

end Coffer.Settings.Document
