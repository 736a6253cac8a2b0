import Coffer.Language.Reading.Select

namespace Coffer.Language

/-! # Reading changes of rows -/

/-- Reads an optional conflict resolution after OR. -/
def resolution? : Reader (Option Resolution) := do
  if ← Reader.acceptWord .or then
    let word ← Reader.next
    match Resolution.ofName? word.text with
    | some resolution => return some resolution
    | none => throw (.unknownResolution word.text)
  else return none

def valuesRow : Reader (List Expression) := do
  Reader.expectSymbol .openParen
  let found ← Reader.separated anyExpression
  Reader.expectSymbol .closeParen
  return found

def insertSource : Reader InsertSource := do
  if (← Reader.peek) = some (.keyword .select) then
    let query ← select
    return .query query
  else
    Reader.expectWord .values
    let rows ← Reader.separated valuesRow
    return .values rows

def insert : Reader Insert := do
  Reader.expectWord .insert
  let resolution ← resolution?
  Reader.expectWord .into
  let table ← Reader.name
  let columns ←
    if (← Reader.peek) = some (.symbol .openParen) then do
      let found ← Reader.names
      pure (some found)
    else pure none
  let source ← insertSource
  return { resolution, table, columns, source }

/-- Reads assignments, at most one more than the given number. No column may be set
twice; `seen` holds the columns set so far. -/
def assignmentsWithin : Nat → (seen : List String) → Reader (List (String × Expression))
  | more, seen => do
    let column ← Reader.name
    Reader.expectSymbol .equal
    let value ← anyExpression
    if column ∈ seen then throw (.columnSetTwice column)
    match more with
    | 0 => return [(column, value)]
    | fewer + 1 =>
      if ← Reader.acceptSymbol .comma then
        let rest ← assignmentsWithin fewer (column :: seen)
        return (column, value) :: rest
      else return [(column, value)]

def assignments : Reader (List (String × Expression)) := fun cursor =>
  assignmentsWithin cursor.tokens.length [] cursor

def update : Reader Update := do
  Reader.expectWord .update
  let resolution ← resolution?
  let table ← Reader.name
  Reader.expectWord .set
  let assignments ← assignments
  let condition ← conditionAfter .«where»
  return { resolution, table, assignments, condition }

def delete : Reader Delete := do
  Reader.expectWord .delete
  Reader.expectWord .«from»
  let table ← Reader.name
  let condition ← conditionAfter .«where»
  return { table, condition }

end Coffer.Language
