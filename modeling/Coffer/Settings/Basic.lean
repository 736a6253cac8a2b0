import Coffer.Language.Diagnosis
import Coffer.Settings.Document
import Coffer.Settings.Path
import Coffer.Snapshot.Key

namespace Coffer

/-! # Settings

Sources give values by name, and what a later source gives is put in place of what an
earlier one gave. Names that are none of a setting are passed over.
-/

structure Settings where
  /-- The file of the snapshot. An empty path stands for a database that is not kept. -/
  snapshotPath : String
  /-- The key of the snapshot in hexadecimal digits. An empty one stands for none. -/
  encryptionKey : String
  compress : Bool
  /-- The number of statements that the log keeps. -/
  logCapacity : Nat
  /-- The bound on the rows of queries that have none. -/
  selectLimit : Nat
  logLevel : String
  deriving DecidableEq, Repr

namespace Settings

/-- What holds where no source says otherwise. -/
def standard : Settings :=
  { snapshotPath := "", encryptionKey := "", compress := true, logCapacity := 1000
    selectLimit := Language.defaultSelectLimit, logLevel := "info" }

/-- Values by name, as a source gives them. -/
abbrev Source := List (String × Tree)

/-- A tree with the values of a source put in. -/
def withSource? (tree : Tree) (source : Source) : Option Tree :=
  source.foldlM (fun tree entry => (Path.ofName entry.1).put? entry.2 tree) tree

def setting (tree : Tree) (name : String) (read? : Tree → Option α) : Except Error α :=
  match (tree.get? name).bind read? with
  | some value => .ok value
  | none => .error .settings

def standardTree : Tree :=
  .table [
    ("snapshot_path", .text standard.snapshotPath),
    ("encryption_key", .text standard.encryptionKey),
    ("compress", .boolean standard.compress),
    ("query_log_capacity", .integer (Int64.ofNat standard.logCapacity)),
    ("select_limit", .integer (Int64.ofNat standard.selectLimit)),
    ("log_level", .text standard.logLevel)]

def ofTree (tree : Tree) : Except Error Settings := do
  return {
    snapshotPath := ← setting tree "snapshot_path" Tree.text?
    encryptionKey := ← setting tree "encryption_key" Tree.text?
    compress := ← setting tree "compress" Tree.boolean?
    logCapacity := ← setting tree "query_log_capacity" Tree.count?
    selectLimit := ← setting tree "select_limit" Tree.count?
    logLevel := ← setting tree "log_level" Tree.text? }

/-- What the names of environment variables for settings begin with, in any case. -/
def variableStart : List Char := "vaultdb_".toList

/-- The setting that an environment variable gives. -/
def ofVariable? (entry : String × String) : Option (String × Tree) :=
  let name := entry.1.toList.map Text.lowerLatin
  if variableStart.isPrefixOf name then
    some (String.ofList (name.drop variableStart.length), .text entry.2)
  else none

/-- The settings from the text of a document, if there is one, and from the environment,
which counts more. -/
def load (document : Option String) (environment : List (String × String)) :
    Except Error Settings :=
  let sources := do
    let filed ← match document with
      | none => some []
      | some text => Document.ofText? text
    let tree ← withSource? standardTree filed
    withSource? tree (environment.filterMap ofVariable?)
  match sources with
  | some tree => ofTree tree
  | none => .error .settings

def snapshotFile? (settings : Settings) : Option String :=
  let path := Text.trim settings.snapshotPath
  if path.isEmpty then none else some path

def key (settings : Settings) : Except Error (Option SnapshotKey) :=
  if (Text.trim settings.encryptionKey).isEmpty then .ok none
  else (SnapshotKey.ofHex settings.encryptionKey).map some

def documentEndings : List String := ["yaml", "yml"]

/-- The ending of the name of a file: what comes after its last point, unless that is the
first character. -/
def ending? (name : List Char) : Option String :=
  let reversed := name.reverse
  let ending := reversed.takeWhile (· != '.')
  match reversed.drop ending.length with
  | _ :: _ :: _ => some (String.ofList ending.reverse)
  | _ => none

/-- The last part of a path. -/
def fileName (path : List Char) : List Char :=
  (path.reverse.takeWhile (· != '/')).reverse

/-- The files to look for under a path: the first one that is there counts. -/
def candidates (path : String) : List String :=
  path :: documentEndings.map fun ending => path ++ "." ++ ending

/-- Whether a file is known to hold a document by the ending of its name. -/
def isDocument (path : String) : Bool :=
  (ending? (fileName path.toList)).any documentEndings.contains

end Settings

end Coffer
