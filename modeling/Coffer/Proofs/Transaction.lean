import Coffer.Proofs.FoundStatement
import Coffer.Proofs.Reachable

namespace Coffer

/-! # Transactions

What was committed last stays what it is while a transaction is open, whatever is asked in the
meantime. Whether one is open is told by the calls that went well: a BEGIN opens it, and the
next COMMIT or ROLLBACK ends it.
-/

/-- The statement that a call asks for, if it asks for one. -/
def Call.request? : Call → Option Request
  | .query request => some request
  | .execute request => some request
  | .addUser .. => none
  | .removeUser _ => none

namespace Database

variable {database now initial : Database} {request : Request} {call : Call} {calls : List Call}
variable {statement : Language.Statement} {parameters : List Value} {outcome : Outcome}
variable {parsed : Language.ParsedStatement} {state : State} {type : Language.StatementType}
variable {error : Error}

/-- The type of the statement that a call carries out. A call whose statement fails, and one
without a statement, carries out none. -/
def carriedOut (database : Database) (call : Call) : Option Language.StatementType :=
  match call.request? with
  | none => none
  | some request =>
    match Language.parse request.sql, (database.perform request).2 with
    | .ok parsed, .ok _ => some parsed.statement.type
    | _, _ => none

/-- Whether none of the calls ends a transaction. -/
def Uninterrupted : Database → List Call → Prop
  | _, [] => True
  | database, call :: rest =>
    database.carriedOut call ≠ some .commit ∧ database.carriedOut call ≠ some .rollback ∧
      Uninterrupted (database.step call) rest

/-- Whether the calls leave a transaction open that began at the given state. -/
def OpenSince (initial : Database) (calls : List Call) (state : State) : Prop :=
  ∃ earlier opening between, calls = earlier ++ opening :: between ∧
    (initial.after earlier).carriedOut opening = some .begin ∧
    (initial.after earlier).state = state ∧
    ((initial.after earlier).step opening).Uninterrupted between

/-- Whether a statement of a type that stands by itself fails and changes nothing. -/
def Refuses (database : Database) (type : Language.StatementType) (reason : Error) : Prop :=
  ∀ request parsed, Language.parse request.sql = .ok parsed → parsed.statement.type = type →
    (database.perform request).1 = database ∧
    ∃ error, database.query request = .error error ∧ (request.parameters = [] → error = reason)

/-! ## One statement -/

/-- Whatever does not control transactions leaves them alone, whether it goes well or fails. -/
theorem run_undo (apart : statement.type.category ≠ .transaction) :
    (database.run statement parameters).1.undo = database.undo := by
  have planned : (database.runPlanned statement parameters).1.undo = database.undo := by
    rw [runPlanned]
    split <;> rfl
  cases statement with
  | begin => exact absurd rfl apart
  | commit => exact absurd rfl apart
  | rollback => exact absurd rfl apart
  | revoke privilege => rfl
  | grant privilege =>
      refine @settle_holds database _ _ (fun after => after.undo = database.undo) rfl
        fun after granted => ?_
      obtain ⟨access, -, rfl⟩ := grant_eq_ok granted
      rfl
  | _ => exact planned

theorem run_control_error (failed : (database.run statement parameters).2 = .error error)
    (control : statement.type.category = .transaction) :
    (database.run statement parameters).1 = database := by
  cases statement with
  | begin => exact settle_error failed
  | commit => exact settle_error failed
  | rollback => exact settle_error failed
  | _ => cases control

theorem run_begin (done : (database.run .begin parameters).2 = .ok outcome) :
    database.undo = none ∧
      (database.run .begin parameters).1 = { database with undo := some database.state } := by
  cases undo : database.undo with
  | none => simp [run, begin, inTransaction, undo, settle]
  | some saved => simp [run, begin, inTransaction, undo, settle] at done

theorem run_commit (done : (database.run .commit parameters).2 = .ok outcome) :
    (database.run .commit parameters).1 = { database with undo := none } := by
  cases undo : database.undo with
  | none => simp [run, commit, inTransaction, undo, settle] at done
  | some saved => simp [run, commit, inTransaction, undo, settle]

theorem run_rollback (done : (database.run .rollback parameters).2 = .ok outcome) :
    ∃ saved, database.undo = some saved ∧
      (database.run .rollback parameters).1 = { database with state := saved, undo := none } := by
  cases undo : database.undo with
  | none => simp [run, rollback, undo, settle] at done
  | some saved => exact ⟨saved, rfl, by simp [run, rollback, undo, settle]⟩

/-! ## One call -/

/-- The state and the open transaction after a call with a statement are those after it. -/
theorem step_request (asked : call.request? = some request) :
    (database.step call).state = (database.perform request).1.state ∧
      (database.step call).undo = (database.perform request).1.undo := by
  cases call with
  | query other =>
      cases asked
      exact ⟨rfl, rfl⟩
  | execute other =>
      cases asked
      rw [step, (execute_eq database request).1]
      exact ⟨rfl, rfl⟩
  | addUser salt username password role => cases asked
  | removeUser username => cases asked

/-- A call that carries a statement out runs it. -/
theorem step_of_carriedOut (carried : database.carriedOut call = some type) :
    ∃ statement parameters outcome, statement.type = type ∧
      (database.run statement parameters).2 = .ok outcome ∧
      (database.step call).state = (database.run statement parameters).1.state ∧
      (database.step call).undo = (database.run statement parameters).1.undo := by
  rw [carriedOut] at carried
  split at carried
  · cases carried
  · rename_i request asked
    split at carried
    · rename_i parsed outcome read done
      cases carried
      obtain ⟨found, same, -, ran⟩ | ⟨error, failed⟩ := database.perform_cases request
      · rw [read] at same
        cases same
        exact ⟨_, _, outcome, rfl, ran ▸ done, ran ▸ step_request asked⟩
      · rw [failed] at done
        cases done
    · cases carried

/-- A call that carries no statement out leaves the open transaction alone. -/
theorem step_undo_of_none (carried : database.carriedOut call = none) :
    (database.step call).undo = database.undo := by
  cases asked : call.request? with
  | none =>
      cases call with
      | query request => cases asked
      | execute request => cases asked
      | addUser salt username password role =>
          simp only [step, addUser]
          split
          · rename_i added
            simp only [bind_eq_ok_iff, pure_eq_ok_iff] at added
            obtain ⟨access, -, rfl⟩ := added
            rfl
          · rfl
      | removeUser username => rfl
  | some request =>
      rw [(step_request asked).2]
      obtain ⟨parsed, read, -, ran⟩ | ⟨error, failed⟩ := database.perform_cases request
      · cases done : (database.perform request).2 with
        | ok outcome => simp only [carriedOut, asked, read, done, reduceCtorEq] at carried
        | error error =>
            by_cases control : parsed.statement.type.category = .transaction
            · rw [ran] at done ⊢
              rw [run_control_error done control]
            · rw [ran, run_undo control]
      · rw [failed]

/-- Only BEGIN, COMMIT and ROLLBACK that are carried out change which state is held. -/
theorem step_undo (database : Database) (call : Call) :
    (database.step call).undo =
      match database.carriedOut call with
      | some .begin => some database.state
      | some .commit => none
      | some .rollback => none
      | _ => database.undo := by
  cases carried : database.carriedOut call with
  | none => exact step_undo_of_none carried
  | some type =>
      obtain ⟨statement, parameters, outcome, rfl, done, -, undo⟩ := step_of_carriedOut carried
      rw [undo]
      cases statement with
      | begin => rw [(run_begin done).2, Language.Statement.type]
      | commit => rw [run_commit done, Language.Statement.type]
      | rollback =>
          obtain ⟨saved, -, ran⟩ := run_rollback done
          rw [ran, Language.Statement.type]
      | _ =>
          refine run_undo ?_
          rintro ⟨⟩

/-! ## Runs -/

theorem after_append (database : Database) (calls others : List Call) :
    database.after (calls ++ others) = (database.after calls).after others :=
  List.foldl_append

theorem uninterrupted_append_singleton :
    database.Uninterrupted (calls ++ [call]) ↔
      database.Uninterrupted calls ∧
        (database.after calls).carriedOut call ≠ some .commit ∧
        (database.after calls).carriedOut call ≠ some .rollback := by
  induction calls generalizing database with
  | nil => simp [Uninterrupted, after]
  | cons first rest ih => simp only [List.cons_append, Uninterrupted, ih, and_assoc, after,
      List.foldl_cons]

/-- A transaction that a call leaves open is begun by it, or was open before and not ended. -/
theorem openSince_append_singleton :
    initial.OpenSince (calls ++ [call]) state ↔
      ((initial.after calls).carriedOut call = some .begin ∧ (initial.after calls).state = state) ∨
      (initial.OpenSince calls state ∧
        (initial.after calls).carriedOut call ≠ some .commit ∧
        (initial.after calls).carriedOut call ≠ some .rollback) := by
  constructor
  · rintro ⟨earlier, opening, between, split, begun, same, uninterrupted⟩
    rcases List.eq_nil_or_concat' between with rfl | ⟨between, last, rfl⟩
    · obtain ⟨rfl, last⟩ := List.append_inj' split rfl
      cases last
      exact .inl ⟨begun, same⟩
    · have parts : calls ++ [call] = (earlier ++ opening :: between) ++ [last] := by simp [split]
      obtain ⟨rfl, same'⟩ := List.append_inj' parts rfl
      cases same'
      obtain ⟨before, ends⟩ := uninterrupted_append_singleton.mp uninterrupted
      refine .inr ⟨⟨earlier, opening, between, rfl, begun, same, before⟩, ?_⟩
      rwa [after_append, after, List.foldl_cons]
  · rintro (⟨begun, same⟩ | ⟨⟨earlier, opening, between, rfl, begun, same, uninterrupted⟩, ends⟩)
    · exact ⟨calls, call, [], rfl, begun, same, trivial⟩
    · refine ⟨earlier, opening, between ++ [call], by simp, begun, same, ?_⟩
      refine uninterrupted_append_singleton.mpr ⟨uninterrupted, ?_⟩
      rwa [after_append, after, List.foldl_cons] at ends

theorem begin_idle (begun : database.carriedOut call = some .begin) : database.undo = none := by
  obtain ⟨statement, parameters, outcome, type, done, -⟩ := step_of_carriedOut begun
  cases statement with
  | begin => exact (run_begin done).1
  | _ => cases type

/-- The state that is held is the one at the BEGIN of the transaction that is open. -/
theorem undo_eq_some_iff (idle : initial.inTransaction = false) :
    (initial.after calls).undo = some state ↔ initial.OpenSince calls state := by
  induction calls using List.reverseRecOn generalizing state with
  | nil =>
      have none : initial.undo = none :=
        Option.isNone_iff_eq_none.mp (Option.isSome_eq_false_iff.mp idle)
      refine ⟨fun some => ?_, fun ⟨earlier, opening, between, split, _⟩ => ?_⟩
      · cases none.symm.trans some
      · simp at split
  | append_singleton calls call ih =>
      have stepped : initial.after (calls ++ [call]) = (initial.after calls).step call :=
        after_append initial calls [call]
      rw [stepped, step_undo, openSince_append_singleton, ← ih]
      split
      · rename_i carried
        simp [carried, begin_idle carried]
      · rename_i carried
        simp [carried]
      · rename_i carried
        simp [carried]
      · rename_i notBegin notCommit notRollback
        simp [show _ ≠ _ from notBegin, show _ ≠ _ from notCommit, show _ ≠ _ from notRollback]

/-! ## Refusals -/

/-- BEGIN, COMMIT and ROLLBACK take no permission and no parameters. -/
theorem check_control (read : Language.parse request.sql = .ok parsed)
    (control : parsed.statement.type.category = .transaction) (bare : request.parameters = []) :
    database.check parsed request = .ok () := by
  obtain ⟨⟨statement, count⟩, whole, made⟩ := bind_eq_ok_iff.mp read
  obtain rfl := pure_eq_ok_iff.mp made
  obtain rfl := Language.parameters_of_parse whole control
  rw [check, bare]
  cases statement with
  | begin => rfl
  | commit => rfl
  | rollback => rfl
  | _ => cases control

theorem refuses (control : type.category = .transaction) {reason : Error}
    (fails : ∀ statement parameters, statement.type = type →
      database.run statement parameters = (database, .error reason)) :
    database.Refuses type reason := by
  rintro request parsed read rfl
  obtain ⟨found, same, -, ran⟩ | ⟨error, failed⟩ := database.perform_cases request
  · rw [read] at same
    cases same
    rw [fails parsed.statement request.parameters rfl] at ran
    exact ⟨by rw [ran], reason, query_eq_error_iff.mpr (by rw [ran]), fun _ => rfl⟩
  · refine ⟨by rw [failed], error, query_eq_error_iff.mpr (by rw [failed]), fun bare => ?_⟩
    have accepted : database.parse request = .ok parsed := by rw [parse_eq, read]
    have ran : database.perform request = database.run parsed.statement request.parameters := by
      rw [perform_eq, accepted]
      simp only [performParsed_eq, check_control read control bare]
    rw [ran, fails parsed.statement request.parameters rfl] at failed
    cases failed
    rfl

theorem run_begin_inside (inside : database.inTransaction = true)
    (begins : statement.type = .begin) :
    database.run statement parameters = (database, .error .transactionActive) := by
  cases statement with
  | begin => simp only [run, begin, inside, if_true, settle]
  | _ => cases begins

theorem run_end_outside (outside : database.undo = none)
    (ends : statement.type = .commit ∨ statement.type = .rollback) :
    database.run statement parameters = (database, .error .noTransaction) := by
  rcases ends with ends | ends
  · cases statement with
    | commit => simp [run, commit, inTransaction, outside, settle]
    | _ => cases ends
  · cases statement with
    | rollback => simp only [run, rollback, outside, settle]
    | _ => cases ends

/-- However calls of any callers are made one after another on a database, and whether they go
well or fail: while a transaction is open, what is committed is the state at its BEGIN, a
ROLLBACK that goes well brings that state back, and a COMMIT commits the live state. While
none is open, what is committed is the live state. A BEGIN fails while one is open, as do
COMMIT and ROLLBACK while none is, and nothing changes then. -/
theorem committed_after (idle : initial.inTransaction = false) (calls : List Call) :
    (∀ state, initial.OpenSince calls state →
      (initial.after calls).committed = state ∧
      (∀ call, (initial.after calls).carriedOut call = some .rollback →
        ((initial.after calls).step call).state = state ∧
        ((initial.after calls).step call).committed = state) ∧
      (∀ call, (initial.after calls).carriedOut call = some .commit →
        ((initial.after calls).step call).state = (initial.after calls).state ∧
        ((initial.after calls).step call).committed = (initial.after calls).state) ∧
      (initial.after calls).Refuses .begin .transactionActive) ∧
    ((∀ state, ¬ initial.OpenSince calls state) →
      (initial.after calls).committed = (initial.after calls).state ∧
      (initial.after calls).Refuses .commit .noTransaction ∧
      (initial.after calls).Refuses .rollback .noTransaction) := by
  refine ⟨fun state isOpen => ?_, fun closed => ?_⟩
  · have held := (undo_eq_some_iff idle).mpr isOpen
    refine ⟨by rw [committed, held, Option.getD_some], fun call carried => ?_,
      fun call carried => ?_, ?_⟩
    · obtain ⟨statement, parameters, outcome, type, done, live, undo⟩ := step_of_carriedOut carried
      cases statement with
      | rollback =>
          obtain ⟨saved, same, ran⟩ := run_rollback done
          cases held.symm.trans same
          rw [ran] at live undo
          rw [committed, undo, Option.getD_none]
          exact ⟨live, live⟩
      | _ => cases type
    · obtain ⟨statement, parameters, outcome, type, done, live, undo⟩ := step_of_carriedOut carried
      cases statement with
      | commit =>
          rw [run_commit done] at live undo
          rw [committed, undo, Option.getD_none]
          exact ⟨live, live⟩
      | _ => cases type
    · refine refuses rfl fun statement parameters begins => run_begin_inside ?_ begins
      rw [inTransaction, held, Option.isSome_some]
  · have none : (initial.after calls).undo = none := by
      rw [Option.eq_none_iff_forall_not_mem]
      exact fun state held => closed state ((undo_eq_some_iff idle).mp held)
    refine ⟨by rw [committed, none, Option.getD_none], ?_, ?_⟩
    · exact refuses rfl fun _ _ ends => run_end_outside none (.inl ends)
    · exact refuses rfl fun _ _ ends => run_end_outside none (.inr ends)

/-- A row and a user that are gone with the transaction in which they came, although another
BEGIN was tried in between. -/
theorem committed_after_rolled_back :
    let ask (sql : String) : Call := .query { sql, parameters := [], caller := .local }
    let earlier := [ask "CREATE TABLE users (name TEXT)"]
    let between := [ask "INSERT INTO users (name) VALUES ('ann')", ask "BEGIN", ask "GRANT ALL TO bob"]
    let calls := earlier ++ ask "BEGIN" :: between
    fresh.OpenSince calls (fresh.after earlier).state ∧
    (fresh.after calls).carriedOut (ask "ROLLBACK") = some .rollback ∧
    (fresh.after calls).committed = (fresh.after earlier).state ∧
    ((fresh.after calls).step (ask "ROLLBACK")).state = (fresh.after earlier).state := by
  intro ask earlier between calls
  have isOpen : fresh.OpenSince calls (fresh.after earlier).state :=
    ⟨earlier, ask "BEGIN", between, rfl, by decide +kernel, rfl, by
      simp only [between, Uninterrupted, and_true]
      decide +kernel⟩
  have ends : (fresh.after calls).carriedOut (ask "ROLLBACK") = some .rollback := by decide +kernel
  obtain ⟨held, back, -⟩ := (@committed_after fresh rfl calls).1 _ isOpen
  exact ⟨isOpen, ends, held, (back _ ends).1⟩

end Database

end Coffer
