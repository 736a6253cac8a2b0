import Coffer.Script.Session

namespace Coffer.Script

/-! # The program

The command line names settings and the caller. The database is opened before the script
begins, and written back when it has ended, whatever became of its statements.
-/

/-- What a command line asks for. -/
structure Invocation where
  /-- The file of the settings. -/
  settings : Option String
  caller : Caller
  deriving DecidableEq, Repr

namespace Invocation

def plain : Invocation :=
  { settings := none, caller := .local }

/-- Takes in arguments; a later one overrides an earlier one. -/
def taking (invocation : Invocation) : List String → Except Error Invocation
  | [] => .ok invocation
  | ["--config"] => .error (.argumentNeeds "--config" "a file")
  | ["--role"] => .error (.argumentNeeds "--role" "a role")
  | "--config" :: file :: rest => { invocation with settings := some file }.taking rest
  | "--role" :: role :: rest => { invocation with caller := .role role }.taking rest
  | "--anonymous" :: rest => { invocation with caller := .anonymous }.taking rest
  | argument :: _ => .error (.unknownArgument argument)

/-- Reads a command line. -/
def ofArguments (arguments : List String) : Except Error Invocation :=
  plain.taking arguments

end Invocation

variable {m : Type → Type} [Monad m]

/-- The session that a command line and an environment ask for. -/
def start (host : Host m) (arguments : List String) (environment : List (String × String)) :
    ExceptT Error m Session := do
  let invocation ← Invocation.ofArguments arguments
  let settings ← host.loadSettings invocation.settings environment
  let database ← host.openDatabase settings
  return .start database invocation.caller

/-- What came of a run: the lines that were written, and whether it went well. -/
structure Run where
  lines : List String
  success : Bool
  deriving DecidableEq, Repr

def run (host : Host m) (arguments : List String) (environment : List (String × String))
    (script : String) : m Run := do
  match ← ExceptT.run (start host arguments environment) with
  | .error _ => return ⟨[], false⟩
  | .ok session =>
    let (after, lines) ← session.read host (linesOf script)
    let flushed ← ExceptT.run (host.flush after.database)
    return ⟨lines, flushed.toBool⟩

end Coffer.Script
