import Coffer.Language.Reading.Change
import Coffer.Language.Reading.Definition

namespace Coffer.Language

/-! # Reading statements -/

def privilege : Reader Permission := do
  let token ← Reader.next
  match token with
  | .keyword keyword =>
    match privilege? keyword with
    | some permission => return permission
    | none => throw (.unknownPrivilege keyword.spelling)
  | _ => throw (.unknownPrivilege token.text)

def privileges : Reader Privileges := do
  if ← Reader.acceptWord .all then
    let _ ← Reader.acceptWord .privileges
    return .every
  else
    let permissions ← Reader.separated privilege
    return .listed permissions

/-- Reads the rest of a GRANT or REVOKE, with the given word before the grantee. -/
def privilegeChange (preposition : Keyword) : Reader Privilege := do
  let privileges ← privileges
  let table ←
    if ← Reader.acceptWord .on then do
      let _ ← Reader.acceptWord .table
      let name ← Reader.name
      pure (some name)
    else pure none
  Reader.expectWord preposition
  let grantee ← Reader.name
  return { privileges, table, grantee }

/-- Reads the optional mode of a BEGIN, which has no effect. -/
def beginMode : Reader Unit := do
  match ← Reader.name? with
  | none => return ()
  | some mode =>
    if Text.upperCase mode ∈ ["DEFERRED", "IMMEDIATE", "EXCLUSIVE"] then return ()
    else throw (.unexpectedToken mode)

def statementOf : StatementType → Reader Statement
  | .select => return .select (← select)
  | .insert => return .insert (← insert)
  | .update => return .update (← update)
  | .delete => return .delete (← delete)
  | .create => do
    let _ ← Reader.next
    return .create (← create)
  | .drop => do
    let _ ← Reader.next
    return .drop (← drop)
  | .alter => do
    let _ ← Reader.next
    return .alter (← alter)
  | .grant => do
    let _ ← Reader.next
    return .grant (← privilegeChange .to)
  | .revoke => do
    let _ ← Reader.next
    return .revoke (← privilegeChange .«from»)
  | .begin => do
    let _ ← Reader.next
    beginMode
    let _ ← Reader.acceptWord .transaction
    return .begin
  | .commit => do
    let _ ← Reader.next
    let _ ← Reader.acceptWord .transaction
    return .commit
  | .rollback => do
    let _ ← Reader.next
    let _ ← Reader.acceptWord .transaction
    return .rollback

/-- Reads a statement. Its first token tells the type. -/
def statement : Reader Statement := do
  match ← Reader.peek with
  | none => throw .endOfInput
  | some token =>
    let type ← StatementType.ofToken token
    statementOf type

/-- Reads a statement, an optional semicolon, and nothing more. -/
def wholeStatement : Reader Statement := do
  let found ← statement
  let _ ← Reader.acceptSymbol .semicolon
  Reader.ended
  return found

/-- The statement a text holds, and the number of its placeholders. -/
def parseStatement (text : String) : Except Error (Statement × Nat) :=
  match wholeStatement (Cursor.ofText text) with
  | .ok (statement, cursor) => .ok (statement, cursor.parameters)
  | .error error => .error error

end Coffer.Language
