import Coffer.Database.Basic

namespace Coffer

/-! # Hosts

What a database asks of its surroundings: files, the time, and bytes that nobody can
foresee. A host provides them in any monad.
-/

structure Host (m : Type → Type) where
  /-- The content of a file, if there is one under the path. -/
  read : String → ExceptT Error m (Option Bytes)
  /-- Writes a file as a whole, with the directories on its path. -/
  write : String → Bytes → ExceptT Error m Unit
  now : m Instant
  /-- As many unforeseeable bytes as are asked for. -/
  random : Nat → m Bytes

namespace Host

/-- The sizes of the nonce of a snapshot and of the salt of a password hash. -/
def nonceSize : Nat := 12

def saltSize : Nat := 16

variable {m : Type → Type} [Monad m] (host : Host m)

/-- The text of the first of several files that is there. Only files that are known to hold
documents are read, and files that cannot be read are passed over. -/
def readDocument : List String → ExceptT Error m String
  | [] => throw Error.settings
  | path :: others => do
    match ← tryCatch (host.read path) fun _ => return none with
    | some content =>
      match (Bytes.text? content).filter fun _ => Settings.isDocument path with
      | some text => return text
      | none => throw Error.settings
    | none => readDocument others

/-- The settings from a document under a path, if one is named, and from the environment. -/
def loadSettings (path : Option String) (environment : List (String × String)) :
    ExceptT Error m Settings := do
  match path with
  | none => Settings.load none environment
  | some path =>
    let text ← host.readDocument (Settings.candidates path)
    Settings.load (some text) environment

/-- The database in the snapshot file of the settings, if it is there. -/
def openDatabase (settings : Settings) : ExceptT Error m Database := do
  let database ← Database.new settings
  match settings.snapshotFile? with
  | none => return database
  | some path =>
    match ← host.read path with
    | none => return database
    | some blob => Database.load settings blob

def snapshot (database : Database) : m Bytes := do
  return database.snapshot (← host.now) (← host.random nonceSize)

/-- Writes a snapshot to the file of the settings. A database without one is not kept. -/
def flush (database : Database) : ExceptT Error m Unit := do
  match database.settings.snapshotFile? with
  | none => return ()
  | some path => host.write path (← host.snapshot database)

/-- Adds a user under a fresh salt. -/
def addUser (database : Database) (username password role : String) :
    ExceptT Error m Database := do
  let salt ← host.random saltSize
  database.addUser salt username password role

end Host

end Coffer
