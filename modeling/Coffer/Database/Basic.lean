import Coffer.Change.InPlace
import Coffer.Settings.Basic
import Coffer.Snapshot.Basic

namespace Coffer

/-! # Databases

A database runs statements for callers. While a transaction is open it holds the state
from before, which is what snapshots see, and what a rollback brings back.
-/

structure LogEntry where
  sql : String
  /-- Told by the first word, if it tells a type. -/
  type : Option Language.StatementType
  error : Option Error
  changes : Option Nat
  /-- The number of rows that a query gave. -/
  rows : Option Nat
  deriving DecidableEq

structure Database where
  state : State
  /-- The state before the open transaction, if one is open. -/
  undo : Option State
  /-- Statements that were executed, the oldest first. -/
  log : List LogEntry
  settings : Settings
  key : Option SnapshotKey

/-- A statement to run: its text, the values of its placeholders, and who asks. -/
structure Request where
  sql : String
  parameters : List Value
  caller : Caller
  deriving DecidableEq, Repr

/-- The state of a database that nothing was done to. -/
def State.initial : State :=
  { store := .empty, access := .standard }

namespace Database

/-- A database with the given state, where no transaction is open. The key in the settings
has to be readable. -/
def ofState (settings : Settings) (state : State) : Except Error Database := do
  return { state, undo := none, log := [], settings, key := ← settings.key }

/-- A database that nothing was done to. -/
def new (settings : Settings) : Except Error Database :=
  ofState settings .initial

/-- The database that a snapshot holds. -/
def load (settings : Settings) (blob : Bytes) : Except Error Database := do
  let database ← new settings
  return { database with state := ← Snapshot.load database.key blob }

def committed (database : Database) : State :=
  database.undo.getD database.state

/-- The snapshot of what was committed. The nonce is fresh for each one. -/
def snapshot (database : Database) (createdAt : Instant) (nonce : Bytes) : Bytes :=
  Snapshot.save
    { key := database.key, compress := database.settings.compress, createdAt, nonce }
    database.committed

def inTransaction (database : Database) : Bool :=
  database.undo.isSome

def withStore (database : Database) (store : Store) : Database :=
  { database with state := { database.state with store } }

def withAccess (database : Database) (access : Access) : Database :=
  { database with state := { database.state with access } }

/-- Passes callers that hold the permission for a type of statements, if it needs one. -/
def authorize (database : Database) (caller : Caller) (type : Language.StatementType) :
    Except Error Unit :=
  match type.permission? with
  | some permission => database.state.access.authorize caller permission
  | none => .ok ()

/-- Reads a statement. A caller that may not run such statements is told so even if the
rest of the text is no statement. -/
def parse (database : Database) (request : Request) :
    Except Error Language.ParsedStatement :=
  match Language.parse request.sql with
  | .ok parsed => .ok parsed
  | .error fault => do
    match Language.classify request.sql with
    | .ok type => database.authorize request.caller type
    | .error _ => pure ()
    throw fault

/-- An infinite or undefined real among values. -/
def strayReal? (values : List Value) : Option Binary64 :=
  values.findSome? fun value =>
    match value with
    | .real x => if x.isFinite then none else some x
    | _ => none

/-- Checks that a statement may run: the permission of the caller, then the form of the
statement, then the values for its placeholders. -/
def check (database : Database) (parsed : Language.ParsedStatement) (request : Request) :
    Except Error Unit := do
  database.authorize request.caller parsed.statement.type
  parsed.diagnosis.check
  if parsed.parameters ≠ request.parameters.length then
    throw (.parameterCount parsed.parameters request.parameters.length)
  match strayReal? request.parameters with
  | some x => throw (.parameterNotFinite x)
  | none => return ()

def begin (database : Database) : Except Error Database :=
  if database.inTransaction then .error .transactionActive
  else .ok { database with undo := some database.state }

/-- Ends the open transaction and keeps what was done in it. -/
def commit (database : Database) : Except Error Database :=
  if database.inTransaction then .ok { database with undo := none }
  else .error .noTransaction

/-- Ends the open transaction and brings the state from before it back. -/
def rollback (database : Database) : Except Error Database :=
  match database.undo with
  | some state => .ok { database with state, undo := none }
  | none => .error .noTransaction

/-- Makes sure that a grantee exists, and the table that the privileges are on. -/
def grant (database : Database) (privilege : Language.Privilege) : Except Error Database := do
  match privilege.table with
  | some table => let _ ← database.state.store.table table
  | none => pure ()
  return database.withAccess (← database.state.access.grant privilege.grantee)

/-- The database after a change that may have failed, with the outcome of one that did not. -/
def settle (database : Database) (changed : Except Error Database) (outcome : Outcome) :
    Database × Except Error Outcome :=
  match changed with
  | .ok after => (after, .ok outcome)
  | .error error => (database, .error error)

/-- Runs a plan against the tables in place. -/
def runPlan (database : Database) (plan : Plan) : Database × Except Error Outcome :=
  let (result, store) := plan.perform database.state.store
  (database.withStore store, result)

/-- Runs a statement that was checked, in place. -/
def run (database : Database) (statement : Language.Statement) (parameters : List Value) :
    Database × Except Error Outcome :=
  match statement with
  | .begin => database.settle database.begin .begun
  | .commit => database.settle database.commit .committed
  | .rollback => database.settle database.rollback .rolledBack
  | .grant privilege => database.settle (database.grant privilege) (.granted privilege.grantee)
  | .revoke privilege => (database, .ok (.revoked privilege.grantee))
  | statement =>
    match planStatement { store := database.state.store, parameters } statement with
    | .ok plan => database.runPlan plan
    | .error error => (database, .error error)

/-- Runs a statement that was read, if it may run. -/
def performParsed (database : Database) (parsed : Language.ParsedStatement)
    (request : Request) : Database × Except Error Outcome :=
  match database.check parsed request with
  | .ok () => database.run parsed.statement request.parameters
  | .error error => (database, .error error)

/-- Runs a statement in place: gives the database as it is after it, whether it went well
or failed, and what it reports. -/
def perform (database : Database) (request : Request) : Database × Except Error Outcome :=
  match database.parse request with
  | .ok parsed => database.performParsed parsed request
  | .error error => (database, .error error)

/-- Runs a statement: gives the database after it and what it reports, unless it fails. -/
def query (database : Database) (request : Request) : Except Error (Database × Outcome) :=
  match database.perform request with
  | (after, .ok outcome) => .ok (after, outcome)
  | (_, .error error) => .error error

/-- The plan of a statement for the state that was committed last. -/
def plan (database : Database) (sql : String) (parameters : List Value) :
    Except Error Plan := do
  let parsed ← Language.parse sql
  planStatement { store := database.committed.store, parameters } parsed.statement

/-- A query with a bound on its rows, if it has none. -/
def optimize (database : Database) (sql : String) : Except Error String :=
  Language.optimize sql database.settings.selectLimit

/-- Adds a user. The salt goes into the password hash. -/
def addUser (database : Database) (salt : Bytes) (username password role : String) :
    Except Error Database := do
  return database.withAccess
    (← database.state.access.addUser salt username password role)

/-- Removes a user, and tells whether there was one. -/
def removeUser (database : Database) (username : String) : Database × Bool :=
  let (access, existed) := database.state.access.removeUser username
  (database.withAccess access, existed)

end Database

end Coffer
