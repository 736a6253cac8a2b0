import Coffer.Script.Program
import Std.Time.DateTime.Timestamp

namespace Coffer

/-! # The command line

Runs a script from the standard input against the database in the settings, and writes one
line per result. Nothing is decided here.
-/

/-- The directory of a file, if its path names one. -/
def directoryOf? (path : String) : Option String :=
  let start := path.toList.reverse.dropWhile (· != '/')
  if start.length ≤ 1 then none else some (String.ofList (start.drop 1).reverse)

/-- Does something with files; a failure has one cause. -/
def withFiles (act : IO α) : ExceptT Error IO α :=
  ExceptT.mk do
    try return .ok (← act)
    catch _ => return .error .fileAccess

/-- The content of a file, if there is one. -/
def readFile? (path : String) : IO (Option Bytes) := do
  try return some (← IO.FS.readBinFile path).toList
  catch failure =>
    match failure with
    | .noFileOrDirectory .. => return none
    | _ => throw failure

/-- Writes a file aside first, so that a reader finds the old content or the new one. -/
def writeFile (path : String) (content : Bytes) : IO Unit := do
  match directoryOf? path with
  | some directory => IO.FS.createDirAll directory
  | none => pure ()
  let aside := path ++ ".tmp"
  IO.FS.writeBinFile aside ⟨content.toArray⟩
  IO.FS.rename aside path

/-- The machine that the program runs on. -/
def machine : Host IO where
  read path := withFiles (readFile? path)
  write path content := withFiles (writeFile path content)
  now := do
    let passed := (← Std.Time.Timestamp.now).val
    return ⟨passed.second.val, passed.nano.val.toNat⟩
  random size := return (← IO.getRandomBytes size.toUSize).toList

def environment : IO (List (String × String)) := do
  let listing ← readFile? "/proc/self/environ"
  let entries := ((listing.bind Bytes.text?).getD "").splitOn "\x00"
  return entries.filterMap fun entry =>
    match entry.splitOn "=" with
    | name :: value => some (name, "=".intercalate value)
    | [] => none

/-- Reads lines up to the end of the input. -/
def runSession (session : Script.Session) : IO Script.Session := do
  let input ← IO.getStdin
  let output ← IO.getStdout
  let mut current := session
  repeat
    let line ← input.getLine
    if line.isEmpty then break
    let (next, written) ← current.feed machine ((Script.linesOf line).headD "")
    written.forM output.putStrLn
    current := next
  let (after, written) := current.conclude
  written.forM output.putStrLn
  return after

end Coffer

def main (arguments : List String) : IO UInt32 := do
  match ← (Coffer.Script.start Coffer.machine arguments (← Coffer.environment)).run with
  | .error error =>
    IO.eprintln error.message
    return 1
  | .ok session =>
    let after ← Coffer.runSession session
    match ← (Coffer.machine.flush after.database).run with
    | .error error =>
      IO.eprintln error.message
      return 1
    | .ok () => return 0
