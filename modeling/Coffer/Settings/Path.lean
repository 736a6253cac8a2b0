import Coffer.Settings.Tree

namespace Coffer.Settings

/-! # Paths

The name under which a source gives a value is a path if it has the form of one: an
identifier, then identifiers after points and indices in square brackets. A value is put in
at the end of its path. Tables and lists are made on the way, in place of whatever else is
there.
-/

inductive Step where
  | child (name : String)
  | item (index : Int)
  deriving DecidableEq, Repr

namespace Step

def isIdentifier (c : Char) : Bool :=
  c.isAlphanum || [' ', '_', '-'].contains c

def isSpace (c : Char) : Bool := c == ' ' || c == '\t'

def readChild? (text : List Char) : Option (Step × List Char) :=
  let name := text.takeWhile isIdentifier
  if name.isEmpty then none
  else some (.child (String.ofList name), text.dropWhile isIdentifier)

/-- Reads an index up to its closing bracket, and what comes after that. -/
def readItem? (text : List Char) : Option (Step × List Char) :=
  let trimmed := text.dropWhile isSpace
  let negative := trimmed.head? == some '-'
  let unsigned := if negative then trimmed.drop 1 else trimmed
  let digits := unsigned.takeWhile Char.isDigit
  match (unsigned.drop digits.length).dropWhile isSpace with
  | ']' :: rest =>
    let signed := if negative then '-' :: digits else digits
    match Numeral.int64 signed with
    | .ok index => some (.item index.toInt, rest)
    | .error _ => none
  | _ => none

def readMore? : (fuel : Nat) → List Char → Option (List Step)
  | _, [] => some []
  | 0, _ => none
  | fuel + 1, mark :: rest => do
    let (step, after) ←
      if mark = '.' then readChild? rest else if mark = '[' then readItem? rest else none
    let steps ← readMore? fuel after
    some (step :: steps)

/-- The index in a list of some length. A negative one counts from the end. -/
def index? (index : Int) (length : Nat) : Option Nat :=
  if 0 ≤ index then some index.toNat
  else if index.natAbs ≤ length then some (length - index.natAbs)
  else none

end Step

/-- The steps of a path: first the name in the table at the top, then the further ones. -/
structure Path where
  name : String
  steps : List Step
  deriving DecidableEq, Repr

namespace Path

/-- The path that a name stands for. One of another form is a path of one step. -/
def ofName (name : String) : Path :=
  let found := do
    let (first, rest) ← Step.readChild? name.toList
    let steps ← Step.readMore? rest.length rest
    match first with
    | .child name => some { name, steps : Path }
    | .item _ => none
  found.getD { name, steps := [] }

/-- What is at the start of some steps, after a value is put in at their end. Only tables go
into what is there. -/
def putSteps? (value : Tree) : (steps : List Step) → (former : Option Tree) → Option Tree
  | [], _ => some value
  | [.child name], former =>
    let tree := former.getD .null
    some (tree.put name (value.onto (tree.get? name)))
  | .child name :: steps, former => do
    let tree := former.getD .null
    some (tree.put name (← putSteps? value steps (tree.get? name)))
  | .item index :: steps, former => do
    let items := (former.getD .null).items
    let index ← Step.index? index items.length
    some (.list (Tree.putItem (← putSteps? value steps items[index]?) index items))

/-- Puts a value in at the end of a path. -/
def put? (path : Path) (value : Tree) (tree : Tree) : Option Tree :=
  putSteps? value (.child path.name :: path.steps) (some tree)

end Path

end Coffer.Settings
