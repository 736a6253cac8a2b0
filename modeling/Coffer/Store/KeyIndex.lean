import Coffer.Value.Comparison

namespace Coffer

/-! # Key indexes

The positions of rows by the key of one of their columns. A key is listed only while
some row has it.
-/

structure KeyIndex where
  entries : List (Key × List Nat)
  deriving DecidableEq, Repr

namespace KeyIndex

def empty : KeyIndex := ⟨[]⟩

/-- Puts a position into an ascending list. -/
def insertPosition (position : Nat) : List Nat → List Nat
  | [] => [position]
  | first :: rest =>
    if position < first then position :: first :: rest
    else if position = first then first :: rest
    else first :: insertPosition position rest

/-- The positions of the rows with a key, ascending. -/
def positions (index : KeyIndex) (key : Key) : List Nat :=
  (index.entries.lookup key).getD []

def addTo (key : Key) (position : Nat) : List (Key × List Nat) → List (Key × List Nat)
  | [] => [(key, [position])]
  | entry :: rest =>
    if entry.1 = key then (key, insertPosition position entry.2) :: rest
    else entry :: addTo key position rest

/-- Adds the position of a row with a key. -/
def add (index : KeyIndex) (key : Key) (position : Nat) : KeyIndex :=
  ⟨addTo key position index.entries⟩

def removeFrom (key : Key) (position : Nat) : List (Key × List Nat) → List (Key × List Nat)
  | [] => []
  | entry :: rest =>
    if entry.1 = key then
      match entry.2.filter fun other => other != position with
      | [] => rest
      | positions => (key, positions) :: rest
    else entry :: removeFrom key position rest

/-- Removes the position of a row with a key. -/
def remove (index : KeyIndex) (key : Key) (position : Nat) : KeyIndex :=
  ⟨removeFrom key position index.entries⟩

/-- Whether some key is that of more than one row. -/
def hasShared (index : KeyIndex) : Bool :=
  index.entries.any fun entry => decide (1 < entry.2.length)

end KeyIndex

end Coffer
