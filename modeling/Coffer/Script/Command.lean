import Coffer.Database.Host

namespace Coffer.Script

/-! # Commands

Lines of a script that are no statements. They show what a database holds, and do what no
statement does.
-/

inductive Command where
  | tables
  | table (name : String)
  | users
  | addUser (username password role : String)
  | flush
  deriving DecidableEq, Repr

/-- The blanks that set off the words of a command. -/
def isGap (c : Char) : Bool :=
  [' ', '\t', '\n', '\x0c', '\r'].contains c

/-- Takes a character into words, from the end on. A gap begins a new word. -/
def addCharacter (c : Char) (words : List (List Char)) : List (List Char) :=
  if isGap c then [] :: words
  else
    match words with
    | [] => [[c]]
    | word :: others => (c :: word) :: others

def wordsOf (line : String) : List String :=
  ((line.toList.foldr addCharacter []).filter fun word => !word.isEmpty).map String.ofList

/-- Whether a line is a command rather than part of a statement. -/
def isCommand (line : String) : Bool :=
  (Text.trim line).toList.head? == some '!'

namespace Command

/-- The command of a line without blanks around it. Words past the role of a new user have
no effect. -/
def ofLine (line : String) : Except Error Command :=
  match wordsOf line with
  | ["!tables"] => .ok .tables
  | ["!table", name] => .ok (.table name)
  | ["!users"] => .ok .users
  | "!adduser" :: username :: password :: role :: _ => .ok (.addUser username password role)
  | ["!flush"] => .ok .flush
  | _ => .error (.unknownCommand line)

end Command

def identityJson (identity : Identity) : Json :=
  .ofMembers [("username", .ofText identity.username), ("role", .ofText identity.role)]

/-- What is written for a command that failed. -/
def failureJson (error : Error) : Json :=
  .ofMembers [("error", .ofText error.message), ("success", .boolean false)]

namespace Command

variable {m : Type → Type} [Monad m]

/-- Runs a command: gives the database after it, and what is written for it, if anything. -/
def run (host : Host m) (database : Database) :
    Command → ExceptT Error m (Database × Option Json)
  | .tables =>
    return (database, some (.ofList .ofText database.state.store.tableNames))
  | .table name => do
    let table ← database.state.store.table name
    return (database, some table.toJson)
  | .users =>
    return (database, some (.ofList identityJson database.state.access.identities))
  | .addUser username password role => do
    let changed ← host.addUser database username password role
    return (changed, some (.ofMembers [
      ("role", .ofText role), ("success", .boolean true), ("username", .ofText username)]))
  | .flush => do
    host.flush database
    return (database, none)

/-- Reads a command and runs it. -/
def runLine (host : Host m) (database : Database) (line : String) :
    ExceptT Error m (Database × Option Json) := do
  let command ← ofLine line
  command.run host database

end Command

end Coffer.Script
