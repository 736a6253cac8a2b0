import Coffer.Error
import Coffer.Language.Statement

namespace Coffer.Language

/-! # Statement types

The type of a statement is told by its leading keyword alone, and the permission a
caller needs by its type.
-/

inductive StatementType where
  | select | insert | update | delete
  | create | drop | alter
  | grant | revoke
  | begin | commit | rollback
  deriving DecidableEq, Repr

/-- The sublanguages: of data, of definitions, of privileges and of transactions. -/
inductive Category where
  | manipulation | definition | control | transaction
  deriving DecidableEq, Repr

namespace StatementType

def category : StatementType → Category
  | .select | .insert | .update | .delete => .manipulation
  | .create | .drop | .alter => .definition
  | .grant | .revoke => .control
  | .begin | .commit | .rollback => .transaction

/-- The permission a caller needs; transaction control needs none. -/
def permission? : StatementType → Option Permission
  | .select => some .select
  | .insert => some .insert
  | .update => some .update
  | .delete => some .delete
  | .create => some .create
  | .drop => some .drop
  | .alter => some .alter
  | .grant => some .grant
  | .revoke => some .revoke
  | .begin | .commit | .rollback => none

def keyword : StatementType → Keyword
  | .select => .select
  | .insert => .insert
  | .update => .update
  | .delete => .delete
  | .create => .create
  | .drop => .drop
  | .alter => .alter
  | .grant => .grant
  | .revoke => .revoke
  | .begin => .begin
  | .commit => .commit
  | .rollback => .rollback

def name (type : StatementType) : String :=
  type.keyword.spelling

def every : List StatementType :=
  [.select, .insert, .update, .delete, .create, .drop, .alter, .grant, .revoke,
    .begin, .commit, .rollback]

/-- The type of the statements that start with a keyword. -/
def ofKeyword? (keyword : Keyword) : Option StatementType :=
  every.find? fun type => type.keyword == keyword

/-- The type of the statements that start with a token. -/
def ofToken (token : Token) : Except Error StatementType :=
  match token with
  | .keyword keyword =>
    match ofKeyword? keyword with
    | some type => .ok type
    | none => .error (.unknownStatement keyword.spelling)
  | _ => .error (.unknownStatement token.text)

end StatementType

def privilegeKeyword : Permission → Keyword
  | .select => .select
  | .insert => .insert
  | .update => .update
  | .delete => .delete
  | .create => .create
  | .drop => .drop
  | .alter => .alter
  | .grant => .grant
  | .revoke => .revoke

def privilege? (keyword : Keyword) : Option Permission :=
  Permission.every.find? fun permission => privilegeKeyword permission == keyword

/-- The type of a statement text, by its first token. -/
def classify (text : String) : Except Error StatementType :=
  match nextLexeme text.toList with
  | .found token _ => StatementType.ofToken token
  | .faulty fault => .error (.lexical fault)
  | .finished => .error .endOfInput

def Statement.type : Statement → StatementType
  | .begin => .begin
  | .commit => .commit
  | .rollback => .rollback
  | .create _ => .create
  | .drop _ => .drop
  | .alter _ => .alter
  | .select _ => .select
  | .insert _ => .insert
  | .update _ => .update
  | .delete _ => .delete
  | .grant _ => .grant
  | .revoke _ => .revoke

end Coffer.Language
