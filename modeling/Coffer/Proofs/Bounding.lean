import Coffer.Proofs.FoundStatement
import Coffer.Proofs.Planned
import Coffer.Proofs.Reachable
import Coffer.Proofs.StatementReading

namespace Coffer

/-! # Bounded queries

A query that is given a bound is written out anew. What is read from the new text is the same
query but for the bound, its plan is the same with the bound on top, and so its rows are the
first ones of the rows before.
-/

namespace Language

variable {text : String} {select : Select} {count number : Nat} {statement : Statement}

/-- A query without a bound on its rows. -/
def Statement.isUnbounded : Statement → Bool
  | .select select => select.limit.isNone
  | _ => false

/-- The query with a bound on its rows. -/
def Select.bounded (select : Select) (number : Nat) : Select :=
  { select with limit := some number }

theorem optimize_unchanged (read : parseStatement text = .ok (statement, count))
    (other : statement.isUnbounded = false) : optimize text number = .ok (Text.trim text) := by
  rw [optimize, read, ok_bind]
  cases statement with
  | select select =>
      have limited : select.limit.isNone = false := other
      dsimp only
      rw [limited]
      rfl
  | _ => rfl

theorem optimize_unbounded (read : parseStatement text = .ok (.select select, count))
    (unbounded : select.limit = none) :
    optimize text number = .ok (select.bounded number).render := by
  rw [optimize, read, ok_bind]
  dsimp only
  rw [unbounded]
  rfl

theorem Select.Found.bounded {allowed : Token → Prop} (found : select.Found allowed)
    (fits : number < Nat.pow 2 64) : (select.bounded number).Found allowed where
  readable := { found.readable with
    limit := by
      rintro _ ⟨⟩
      exact fits }
  items := found.items
  source := found.source
  joins := found.joins

theorem render_select : (Statement.select select).render = select.render := rfl

theorem placeholders_bounded :
    (Statement.select (select.bounded number)).placeholders =
      (Statement.select select).placeholders := rfl

/-- A bound on the rows of a query reads back with it. -/
theorem parseStatement_bounded (read : parseStatement text = .ok (.select select, count))
    (ascii : ∀ token ∈ (tokensOf text).tokens, token.isAscii = true)
    (intact : ∀ expression ∈ select.expressions, expression.Intact)
    (fits : number < Nat.pow 2 64) :
    parseStatement (select.bounded number).render =
      .ok (.select (select.bounded number), count) := by
  obtain ⟨found, inside, numbered, total⟩ := select_of_parse read ascii
  have clear : ∀ expression ∈ (select.bounded number).expressions, expression.Clear :=
    fun expression member => ⟨inside expression member, intact expression member⟩
  have faithful : (Statement.select (select.bounded number)).Faithful :=
    ⟨(found.bounded fits).readable, fun expression member => (clear expression member).faithful,
      List.forall_mem_nil _⟩
  have legible := legible_select (found.bounded fits) clear
  rw [total, ← render_select]
  rw [← placeholders_bounded] at numbered ⊢
  exact parseStatement_render faithful legible numbered

/-- Whether a text is a query without a bound, with names in ASCII, that reads back as it is
written wherever something is matched in it. -/
def isBoundable (text : String) : Bool :=
  (tokensOf text).tokens.all Token.isAscii &&
    match parseStatement text with
    | .ok (.select select, _) =>
      select.limit.isNone && select.expressions.all fun expression =>
        expression.parts.all fun part =>
          match part with
          | .binary .like matched _ => matched.parts.all Expression.isIntact
          | _ => true
    | _ => false

theorem of_isBoundable (boundable : isBoundable text = true) :
    ∃ select count, parseStatement text = .ok (.select select, count) ∧ select.limit = none ∧
      (∀ token ∈ (tokensOf text).tokens, token.isAscii = true) ∧
      ∀ parameters, ∀ expression ∈ select.expressions, expression.MatchesIntact parameters := by
  rw [isBoundable, Bool.and_eq_true] at boundable
  obtain ⟨ascii, boundable⟩ := boundable
  split at boundable
  · rename_i select count read
    simp only [Bool.and_eq_true, Option.isNone_iff_eq_none, List.all_eq_true] at boundable
    refine ⟨select, count, read, boundable.1, List.all_eq_true.mp ascii, ?_⟩
    rintro parameters expression listed _ member matched pattern rfl -
    exact List.all_eq_true.mp (boundable.2 expression listed _ member)
  · cases boundable

end Language

open Coffer.Language (Select Statement Token parseStatement tokensOf)

section Plans

variable {context : PlanContext} {select : Select} {number : Nat}

theorem planBounds_bounded (unbounded : select.limit = none) :
    planBounds (select.bounded number) = QueryPlan.limit number ∘ planBounds select := by
  funext source
  rw [Function.comp, planBounds, planBounds, unbounded]
  rfl

theorem planUnbounded_bounded :
    planUnbounded context (select.bounded number) = planUnbounded context select := rfl

/-- The bound goes on top of the plan. -/
theorem planSelect_bounded (unbounded : select.limit = none) :
    planSelect context (select.bounded number) =
      (planSelect context select).map (QueryPlan.limit number) := by
  rw [planSelect_eq, planSelect_eq, planBounds_bounded unbounded, planUnbounded_bounded]
  cases planUnbounded context select <;> rfl

end Plans

namespace Database

variable {database after : Database} {request : Request} {select : Select} {count : Nat}
variable {outcome : Outcome}

theorem query_of_perform (performed : (database.perform request).2 = .ok outcome) :
    database.query request = .ok ((database.perform request).1, outcome) := by
  rcases ran : database.perform request with ⟨after, result⟩
  rw [ran] at performed
  obtain rfl : result = .ok outcome := performed
  rw [query_eq, ran]

theorem run_select {parameters : List Value} :
    database.run (.select select) parameters =
      match (do
        let plan ← planSelect { store := database.state.store, parameters } select
        plan.run database.state.store) with
      | .ok set => (database, .ok (.rows set))
      | .error error => (database, .error error) := by
  change database.runPlanned (.select select) parameters = _
  rw [runPlanned, planStatement]
  cases planSelect { store := database.state.store, parameters } select with
  | error error => rfl
  | ok plan =>
      simp only [Except.map, ok_bind, runPlan, Plan.perform, Writing.read_bind]
      cases plan.run database.state.store <;> rfl

/-- A query is checked, planned and run, and leaves the database as it is. -/
theorem query_select (read : parseStatement request.sql = .ok (.select select, count)) :
    database.query request = (do
      database.check ⟨Text.trim request.sql, .select select, count, select.diagnosis⟩ request
      let plan ← planSelect
        { store := database.state.store, parameters := request.parameters } select
      let set ← plan.run database.state.store
      return (database, .rows set)) := by
  have parsed : Language.parse request.sql =
      .ok ⟨Text.trim request.sql, .select select, count, select.diagnosis⟩ := by
    rw [Language.parse, read]
    rfl
  simp only [query_eq, perform_eq, parse_eq, parsed, performParsed_eq]
  cases database.check ⟨Text.trim request.sql, .select select, count, select.diagnosis⟩ request with
  | error error => rfl
  | ok _ =>
      rw [run_select, ok_bind, ← bind_assoc]
      cases (do
        let plan ← planSelect
          { store := database.state.store, parameters := request.parameters } select
        plan.run database.state.store : Except Error RowSet) <;> rfl

theorem query_select_eq_ok (read : parseStatement request.sql = .ok (.select select, count))
    (ran : database.query request = .ok (after, outcome)) :
    database.check ⟨Text.trim request.sql, .select select, count, select.diagnosis⟩ request =
      .ok () ∧
    ∃ plan set,
      planSelect { store := database.state.store, parameters := request.parameters } select =
        .ok plan ∧
      plan.run database.state.store = .ok set ∧ database = after ∧ .rows set = outcome := by
  rw [query_select read, bind_eq_ok_iff] at ran
  obtain ⟨⟨⟩, checked, ran⟩ := ran
  obtain ⟨plan, planned, ran⟩ := bind_eq_ok_iff.mp ran
  obtain ⟨set, result, made⟩ := bind_eq_ok_iff.mp ran
  exact ⟨checked, plan, set, planned, result, Prod.mk.inj (pure_eq_ok_iff.mp made)⟩

/-- Two requests that ask for the same query, one of them with a bound on its rows. -/
theorem query_of_bounded {other : Request} {number : Nat}
    (parameters : other.parameters = request.parameters) (caller : other.caller = request.caller)
    (read : parseStatement request.sql = .ok (.select select, count))
    (again : parseStatement other.sql = .ok (.select (select.bounded number), count))
    (unbounded : select.limit = none) (ran : database.query request = .ok (after, outcome)) :
    ∃ columns rows, outcome = .rows ⟨columns, rows⟩ ∧
      database.query other = .ok (after, .rows ⟨columns, rows.take number⟩) := by
  obtain ⟨checked, plan, set, planned, result, rfl, rfl⟩ := query_select_eq_ok read ran
  refine ⟨set.columns, set.rows, rfl, ?_⟩
  have passed : database.check ⟨Text.trim other.sql, .select (select.bounded number), count,
      (select.bounded number).diagnosis⟩ other = .ok () := by
    rw [check, parameters, caller]
    exact checked
  rw [query_select again, passed, ok_bind, parameters, planSelect_bounded unbounded, planned]
  simp only [Except.map, ok_bind, QueryPlan.run, result]
  rfl

/-- Bounding a query does no more than to take the first ones of its rows. A text that is
another statement, or has a bound already, is only trimmed. The names have to be in ASCII, and
what is matched against a null pattern, which alone is not looked at when a query is planned,
has to read back as it is written. -/
theorem query_bounded (database : Database) (request : Request) (limit : UInt64) :
    (∀ statement count, parseStatement request.sql = .ok (statement, count) →
      statement.isUnbounded = false →
      Language.optimize request.sql limit.toNat = .ok (Text.trim request.sql)) ∧
    ∀ select count after outcome, parseStatement request.sql = .ok (.select select, count) →
      select.limit = none →
      (∀ token ∈ (tokensOf request.sql).tokens, token.isAscii = true) →
      (∀ expression ∈ select.expressions, expression.MatchesIntact request.parameters) →
      database.query request = .ok (after, outcome) →
      ∃ columns rows bounded, outcome = .rows ⟨columns, rows⟩ ∧
        Language.optimize request.sql limit.toNat = .ok bounded ∧
        database.query { request with sql := bounded } =
          .ok (after, .rows ⟨columns, rows.take limit.toNat⟩) := by
  refine ⟨fun statement count read other => Language.optimize_unchanged read other, ?_⟩
  intro select count after outcome read unbounded ascii matched ran
  obtain ⟨-, plan, set, planned, -⟩ := query_select_eq_ok read ran
  have again := Language.parseStatement_bounded read ascii (planSelect_intact matched planned)
    limit.toNat_lt
  have optimized : Language.optimize request.sql limit.toNat = _ :=
    Language.optimize_unbounded read unbounded
  -- From here on it does not matter what the text is, only what is read from it.
  generalize (select.bounded limit.toNat).render = bounded at again optimized
  have parameters : { request with sql := bounded }.parameters = request.parameters := rfl
  obtain ⟨columns, rows, shown, ran⟩ := query_of_bounded parameters rfl read again unbounded ran
  exact ⟨columns, rows, bounded, shown, optimized, ran⟩

theorem query_bounded_call :
    let database := fromTexts ["CREATE TABLE t (a TEXT)", "INSERT INTO t (a) VALUES ('x'), ('y')"]
    let request : Request :=
      { sql := "select a from t where not (a < 'x' and lower(?) like null)"
        parameters := [.null]
        caller := .local }
    let bounded := "SELECT a FROM t WHERE NOT (a < 'x' AND LOWER(?) LIKE NULL) LIMIT 1"
    Language.isBoundable request.sql = true ∧
    (database.perform request).2 = .ok (.rows ⟨["a"], [[.text "x"], [.text "y"]]⟩) ∧
    Language.optimize request.sql 1 = .ok bounded ∧
    database.query { request with sql := bounded } =
      .ok ((database.perform request).1, .rows ⟨["a"], [[.text "x"]]⟩) := by
  intro database request bounded
  have boundable : Language.isBoundable request.sql = true := by decide +kernel
  have performed : (database.perform request).2 =
      .ok (.rows ⟨["a"], [[.text "x"], [.text "y"]]⟩) := by decide +kernel
  have optimized : Language.optimize request.sql 1 = .ok bounded := by decide +kernel
  obtain ⟨select, count, read, unbounded, ascii, matched⟩ := Language.of_isBoundable boundable
  obtain ⟨columns, rows, text, shown, made, ran⟩ :=
    (query_bounded database request 1).2 select count _ _ read unbounded ascii
      (matched request.parameters) (query_of_perform performed)
  cases shown
  cases made.symm.trans optimized
  exact ⟨boundable, performed, optimized, ran⟩

/-- A function whose name is no word is called by no text that is written without quotes. -/
theorem quoted_call_not_bounded :
    let database := fromTexts ["CREATE TABLE t (a TEXT)", "INSERT INTO t (a) VALUES ('x')"]
    let request : Request :=
      { sql := "SELECT a FROM t WHERE a = 'x' OR \x22a b\x22(1) LIKE NULL"
        parameters := []
        caller := .local }
    let bounded := "SELECT a FROM t WHERE a = 'x' OR A B(1) LIKE NULL LIMIT 1000"
    (database.perform request).2 = .ok (.rows ⟨["a"], [[.text "x"]]⟩) ∧
    Language.optimize request.sql 1000 = .ok bounded ∧
    (database.perform { request with sql := bounded }).2.isOk = false := by
  decide +kernel

end Database

end Coffer
