import Coffer.Database.Report
import Coffer.Script.Command

namespace Coffer.Script

/-! # Sessions

A session reads a script line by line. A statement goes over as many lines as it takes to
its semicolon; a command is a line of its own between statements. Every statement and
nearly every command writes one line.
-/

structure Session where
  database : Database
  caller : Caller
  /-- The lines of a statement that is not complete, each with its end. -/
  pending : String

/-- Whether a statement ends here: with a semicolon that is no part of a string, or because
the text cannot be read any further. -/
def isComplete (text : String) : Bool :=
  let found := Language.tokensOf text
  found.fault.isSome || found.tokens.getLast? == some (.symbol .semicolon)

namespace Session

def start (database : Database) (caller : Caller) : Session :=
  { database, caller, pending := "" }

/-- Executes what is pending: gives the session after it, and the line that is written. -/
def submit (session : Session) : Session × String :=
  let (database, report) := session.database.execute
    { sql := Text.trim session.pending, parameters := [], caller := session.caller }
  ({ session with database, pending := "" }, report.toJson.toText)

/-- Takes in a line that is no command. -/
def extend (session : Session) (line : String) : Session × Option String :=
  let longer := { session with pending := session.pending ++ line ++ "\n" }
  if isComplete longer.pending then
    let (after, written) := longer.submit
    (after, some written)
  else (longer, none)

/-- Executes what is pending when the script ends, unless it is blank. -/
def conclude (session : Session) : Session × Option String :=
  if (Text.trim session.pending).isEmpty then (session, none)
  else
    let (after, written) := session.submit
    (after, some written)

variable {m : Type → Type} [Monad m]

/-- Runs a command. One that fails is reported, and the script goes on. -/
def obey (host : Host m) (session : Session) (line : String) : m (Session × Option String) := do
  match ← ExceptT.run (Command.runLine host session.database line) with
  | .ok (database, document) => return ({ session with database }, document.map Json.toText)
  | .error error => return (session, some (failureJson error).toText)

/-- Takes in a line: gives the session after it, and the line that is written, if any. -/
def feed (host : Host m) (session : Session) (line : String) : m (Session × Option String) :=
  if session.pending.isEmpty && isCommand line then session.obey host (Text.trim line)
  else return session.extend line

/-- Takes in lines one after another: gives the session after them, and the lines that are
written. -/
def feedLines (host : Host m) (session : Session) : List String → m (Session × List String)
  | [] => return (session, [])
  | line :: others => do
    let (next, written) ← session.feed host line
    let (after, further) ← feedLines host next others
    return (after, written.toList ++ further)

/-- Takes in all lines of a script, and then its end. -/
def read (host : Host m) (session : Session) (lines : List String) :
    m (Session × List String) := do
  let (last, written) ← session.feedLines host lines
  let (after, further) := last.conclude
  return (after, written ++ further.toList)

end Session

/-- Takes a character into lines, from the end on. -/
def addToLines (c : Char) (lines : List (List Char)) : List (List Char) :=
  if c = '\n' then [] :: lines
  else
    match lines with
    | [] => [[c]]
    | line :: others => (c :: line) :: others

/-- A line without a carriage return at its end. -/
def withoutReturn (line : List Char) : List Char :=
  if line.getLast? = some '\r' then line.dropLast else line

/-- The lines of a script. A line ends with a line feed, perhaps after a carriage return;
the last one may also end with the script. -/
def linesOf (script : String) : List String :=
  let lines := script.toList.foldr addToLines [[]]
  let ended := lines.dropLast.map withoutReturn
  let rest := lines.getLast?.toList.filter fun line => !line.isEmpty
  (ended ++ rest).map String.ofList

end Coffer.Script
