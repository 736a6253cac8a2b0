import Coffer.Database.Basic

namespace Coffer

/-! # Reports

A report tells of a statement that was executed, whether it went well or failed.
-/

structure Report where
  type : Option Language.StatementType
  result : Except Error Outcome
  warnings : List String

namespace Report

def error? (report : Report) : Option Error :=
  match report.result with
  | .ok _ => none
  | .error error => some error

def outcome? (report : Report) : Option Outcome :=
  report.result.toOption

def success (report : Report) : Bool :=
  report.outcome?.isSome

def changes? (report : Report) : Option Nat :=
  report.outcome?.bind Outcome.changes?

/-- The rows that a query gave. -/
def rows? (report : Report) : Option (List Row) :=
  report.outcome?.bind fun outcome => outcome.namedRows.toOption

def columns? (report : Report) : Option (List String) :=
  report.outcome?.bind fun outcome => outcome.rowSet.toOption.map RowSet.columns

/-- The last id that an insertion gave to a row. -/
def lastInsertId? (report : Report) : Option Int64 :=
  match report.outcome? with
  | some (.inserted _ lastId) => lastId
  | _ => none

def warnings? (report : Report) : Option (List String) :=
  if report.warnings.isEmpty then none else some report.warnings

/-- The entry of the log for a report on a statement. -/
def entry (report : Report) (sql : String) : LogEntry :=
  { sql, type := report.type, error := report.error?, changes := report.changes?
    rows := report.rows?.map List.length }

/-- A member of an object that is left out where it has no content. -/
def member? (name : String) (encode : α → Json) (content : Option α) : List (String × Json) :=
  content.toList.map fun found => (name, encode found)

def toJson (report : Report) : Json :=
  .ofMembers <|
    [("success", .boolean report.success),
      ("type", .ofOption (fun type => .ofText type.name) report.type)] ++
    member? "rows" (.ofList Row.toJson) report.rows? ++
    member? "columns" (.ofList .ofText) report.columns? ++
    member? "rowCount" (fun rows => .ofInt rows.length) report.rows? ++
    member? "changes" (fun count => .ofInt (count : Nat)) report.changes? ++
    member? "lastInsertId" (fun id => .ofInt id.toInt) report.lastInsertId? ++
    member? "error" (fun error => .ofText error.message) report.error? ++
    member? "warnings" (.ofList .ofText) report.warnings?

end Report

namespace Database

/-- Appends an entry to a log that keeps the given number of entries. The oldest ones make
room. -/
def logged (capacity : Nat) (log : List LogEntry) (entry : LogEntry) : List LogEntry :=
  if capacity = 0 then log
  else log.drop (log.length + 1 - capacity) ++ [entry]

/-- Runs a statement and writes it to the log, whether it goes well or fails. -/
def execute (database : Database) (request : Request) : Database × Report :=
  let (after, report) : Database × Report :=
    match database.parse request with
    | .error error =>
      (database, ⟨(Language.classify request.sql).toOption, .error error, []⟩)
    | .ok parsed =>
      let (after, result) := database.performParsed parsed request
      (after, ⟨some parsed.statement.type, result, parsed.diagnosis.warnings⟩)
  let log := logged database.settings.logCapacity after.log (report.entry request.sql)
  ({ after with log }, report)

end Database

end Coffer
