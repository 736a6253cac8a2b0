import Coffer.Language.Statement
import Coffer.Query.Execution

namespace Coffer

/-! # Staging

The changes of one statement are gathered beside the stored rows and written only when
every row has passed. Stored rows are reached through their key indexes; what counts is
the live rows: the stored ones that are neither removed nor covered by a staged tuple, and
the staged tuples.
-/

open Coffer.Language (Resolution)

structure Staged where
  relation : Relation
  /-- Staged tuples by ascending position. They cover stored rows, or stand behind them. -/
  tuples : List (Nat × Tuple)
  /-- The positions of stored rows that will be removed, ascending. -/
  removed : List Nat
  /-- The positions of staged tuples by key, for each unique column. -/
  keys : List (Nat × KeyIndex)

namespace Staged

/-- Nothing staged yet. -/
def start (relation : Relation) : Staged :=
  { relation, tuples := [], removed := []
    keys := relation.schema.uniqueColumns.map fun column => (column, .empty) }

/-- The unique columns, in the order in which they are looked at. -/
def uniqueColumns (staged : Staged) : List Nat :=
  staged.keys.map Prod.fst

def covers (staged : Staged) (position : Nat) : Bool :=
  staged.tuples.any fun entry => entry.1 == position

/-- Whether the stored row at a position is as it was. -/
def untouched (staged : Staged) (position : Nat) : Bool :=
  !staged.removed.contains position && !staged.covers position

/-- The positions of the live rows that share the key of a tuple in a column, apart from
the one that the tuple stands for. -/
def clashes (staged : Staged) (tuple : Tuple) (own : Option Nat) (column : Nat) : List Nat :=
  match (tuple.getD column .null).key? with
  | none => []
  | some key =>
    let stored := (staged.relation.positionsOf column key).filter staged.untouched
    let added := match staged.keys.lookup column with
      | some index => index.positions key
      | none => []
    (stored ++ added).filter fun position => some position != own

/-- The first unique column in which a tuple clashes with live rows, and their positions. -/
def firstClash? (staged : Staged) (tuple : Tuple) (own : Option Nat) :
    Option (Nat × List Nat) :=
  staged.uniqueColumns.findSome? fun column =>
    match staged.clashes tuple own column with
    | [] => none
    | found => some (column, found)

/-- Changes the key index of each unique column in which a tuple has a key. -/
def changeKeys (change : KeyIndex → Key → KeyIndex) (tuple : Tuple)
    (keys : List (Nat × KeyIndex)) : List (Nat × KeyIndex) :=
  keys.map fun entry =>
    match (tuple.getD entry.1 .null).key? with
    | some key => (entry.1, change entry.2 key)
    | none => entry

/-- Puts a tuple where its position belongs. -/
def placeTuple (position : Nat) (tuple : Tuple) : List (Nat × Tuple) → List (Nat × Tuple)
  | [] => [(position, tuple)]
  | entry :: rest =>
    if position < entry.1 then (position, tuple) :: entry :: rest
    else if position = entry.1 then (position, tuple) :: rest
    else entry :: placeTuple position tuple rest

/-- Takes back the tuple staged at a position. -/
def unstage (staged : Staged) (position : Nat) : Staged :=
  match staged.tuples.lookup position with
  | none => staged
  | some tuple =>
    { staged with
      tuples := staged.tuples.filter fun entry => entry.1 != position
      keys := changeKeys (fun index key => index.remove key position) tuple staged.keys }

/-- Stages a tuple at a position, instead of any that is staged there. -/
def stage (staged : Staged) (position : Nat) (tuple : Tuple) : Staged :=
  let cleared := staged.unstage position
  { cleared with
    tuples := placeTuple position tuple cleared.tuples
    keys := changeKeys (fun index key => index.add key position) tuple cleared.keys }

/-- The position behind all stored and staged rows. -/
def nextPosition (staged : Staged) : Nat :=
  match staged.tuples.getLast? with
  | some entry => max (entry.1 + 1) staged.relation.rows.length
  | none => staged.relation.rows.length

/-- Stages a new row behind all others. -/
def append (staged : Staged) (tuple : Tuple) : Staged :=
  staged.stage staged.nextPosition tuple

/-- Removes the live row at a position. -/
def remove (staged : Staged) (position : Nat) : Staged :=
  let cleared := staged.unstage position
  if position < cleared.relation.rows.length then
    { cleared with removed := KeyIndex.insertPosition position cleared.removed }
  else cleared

/-- Removes the live rows that clash with a tuple in a column. -/
def displace (staged : Staged) (tuple : Tuple) (own : Option Nat) (column : Nat) : Staged :=
  (staged.clashes tuple own column).foldl remove staged

/-- Makes room for a tuple among the live rows. Where it clashes with one, the resolution
decides: the statement fails, or the tuple is passed over, which is told by `none`, or the
other rows give way in one unique column after another. -/
def accept (staged : Staged) (tuple : Tuple) (own : Option Nat) (resolution : Resolution) :
    Except Error (Option Staged) :=
  match staged.firstClash? tuple own with
  | none => .ok (some staged)
  | some (column, _) =>
    match resolution with
    | .ignore => .ok none
    | .replace =>
      .ok (some (staged.uniqueColumns.foldl (fun s column => s.displace tuple own column) staged))
    | .abort | .fail | .rollback =>
      let schema := staged.relation.schema
      .error (.notUnique schema.name ((schema.columnNames[column]?).getD ""))

end Staged

end Coffer
