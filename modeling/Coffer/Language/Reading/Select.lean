import Coffer.Language.Reading.Expression

namespace Coffer.Language

/-! # Reading queries -/

/-- Reads an optional alias, with or without AS. -/
def asName? : Reader (Option String) := do
  if ← Reader.acceptWord .as then
    let name ← Reader.name
    return some name
  else Reader.name?

/-- Reads one item of a select list. A qualified star may be quoted. -/
def selectItem : Reader SelectItem := do
  if ← Reader.acceptSymbol .asterisk then return .every
  match ← anyExpression with
  | .field (some relation) "*" => return .everyOf relation
  | value =>
    let asName ← asName?
    return .expression value asName

def tableReference : Reader TableReference := do
  let name ← Reader.name
  let asName ← asName?
  return { name, asName }

def joinKind? : Token → Option JoinKind
  | .symbol .comma => some .cross
  | .keyword .join => some .inner
  | .keyword .inner => some .inner
  | .keyword .left => some .left
  | .keyword .right => some .right
  | .keyword .cross => some .cross
  | _ => none

/-- Reads the words of a join up to its table, after its first token. -/
def joinWords (kind : JoinKind) : Token → Reader Unit
  | .symbol .comma => return ()
  | .keyword .join => return ()
  | _ => do
    if kind = .left ∨ kind = .right then
      let _ ← Reader.acceptWord .outer
    Reader.expectWord .join

/-- Reads joined tables, at most the given number. -/
def joinsWithin : Nat → Reader (List Join)
  | 0 => return []
  | more + 1 => do
    match (← Reader.peek).bind joinKind? with
    | none => return []
    | some kind =>
      let first ← Reader.next
      joinWords kind first
      let table ← tableReference
      let condition ←
        if kind = .cross then pure none
        else do
          Reader.expectWord .on
          let found ← anyExpression
          pure (some found)
      let rest ← joinsWithin more
      return { kind, table, condition } :: rest

def joins : Reader (List Join) := fun cursor =>
  joinsWithin (cursor.tokens.length + 1) cursor

/-- Reads the condition after a keyword, if the keyword is next. -/
def conditionAfter (keyword : Keyword) : Reader (Option Expression) := do
  if ← Reader.acceptWord keyword then
    let found ← anyExpression
    return some found
  else return none

def orderTerm : Reader OrderTerm := do
  let key ← anyExpression
  let direction ← Reader.takeIf fun token => token == .keyword .asc || token == .keyword .desc
  return { key, descending := direction == some (.keyword .desc) }

/-- Reads a list after two keywords, if the first one is next. -/
def listAfter (first second : Keyword) (item : Reader α) : Reader (List α) := do
  if ← Reader.acceptWord first then
    Reader.expectWord second
    Reader.separated item
  else return []

/-- Reads the limit and the offset. The offset may also stand before the limit, set off
by a comma; a later OFFSET clause overrides it. -/
def bounds : Reader (Option Nat × Option Nat) := do
  let (limit, early) ←
    if ← Reader.acceptWord .limit then do
      let first ← Reader.count
      if ← Reader.acceptSymbol .comma then do
        let second ← Reader.count
        pure (some second, some first)
      else pure (some first, none)
    else pure (none, none)
  if ← Reader.acceptWord .offset then
    let offset ← Reader.count
    return (limit, some offset)
  else return (limit, early)

def select : Reader Select := do
  Reader.expectWord .select
  let distinct ← Reader.acceptWord .distinct
  if distinct = false then
    let _ ← Reader.acceptWord .all
  let items ← Reader.separated selectItem
  let (source, joins) ←
    if ← Reader.acceptWord .«from» then do
      let first ← tableReference
      let others ← joins
      pure (some first, others)
    else pure (none, [])
  let condition ← conditionAfter .«where»
  let grouping ← listAfter .group .«by» anyExpression
  let having ← conditionAfter .having
  let ordering ← listAfter .order .«by» orderTerm
  let (limit, offset) ← bounds
  return { distinct, items, source, joins, condition, grouping, having, ordering, limit, offset }

end Coffer.Language
