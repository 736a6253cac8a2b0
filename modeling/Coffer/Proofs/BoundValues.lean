import Coffer.Database.Basic
import Coffer.Proofs.Bounding
import Coffer.Proofs.FilledStatement

namespace Coffer

/-! # Bound values

A change of rows does the same with values bound to its placeholders as it does with the values
written in its text as literals: values are never read as anything else.
-/

open Language (Expression Literal Statement literalsOf)

section Agree

variable {ε α β γ : Type}

/-- Whether two computations give the same result, or both give none. -/
def Agree (first second : Except ε α) : Prop :=
  first.toOption = second.toOption

namespace Agree

variable {first second : Except ε α} {rest other : α → Except ε β}

theorem refl : Agree first first := rfl

theorem of_error {reason another : ε} : Agree (.error reason : Except ε α) (.error another) := rfl

theorem eq_ok_iff (same : Agree first second) {result : α} :
    first = .ok result ↔ second = .ok result := by
  cases first with
  | error reason =>
      cases second with
      | error another => exact ⟨nofun, nofun⟩
      | ok seen => cases same
  | ok found =>
      cases second with
      | error another => cases same
      | ok seen =>
          cases same
          exact ⟨id, id⟩

theorem bind (same : Agree first second) (each : ∀ found, Agree (rest found) (other found)) :
    Agree (first >>= rest) (second >>= other) := by
  cases first with
  | error reason =>
      cases second with
      | error another => exact of_error
      | ok seen => cases same
  | ok found =>
      cases second with
      | error another => cases same
      | ok seen =>
          cases same
          exact each found

theorem map (same : Agree first second) (change : α → β) :
    Agree (first.map change) (second.map change) := by
  cases first with
  | error reason =>
      cases second with
      | error another => exact of_error
      | ok seen => cases same
  | ok found =>
      cases second with
      | error another => cases same
      | ok seen =>
          cases same
          exact refl

theorem mapM {step : α → Except ε β} {another : γ → Except ε β} {items : List α} {image : α → γ}
    (each : ∀ item, Agree (step item) (another (image item))) :
    Agree (items.mapM step) ((items.map image).mapM another) := by
  induction items with
  | nil => exact refl
  | cons item others ih =>
      rw [List.map_cons, List.mapM_cons, List.mapM_cons]
      exact (each item).bind fun result => ih.bind fun results => refl

end Agree

end Agree

/-! ## Conditions and assignments -/

theorem ofLiteral_literal {value : Value} : Value.ofLiteral (Builder.literal value) = value := by
  cases value <;> rfl

/-- Whether a resolver finds columns only. -/
def Blind (resolve : Resolver) : Prop :=
  ∀ function arguments position, resolve (.call function arguments) ≠ .ok position

section Plans

variable {values : List Value} {resolve : Resolver} {expression : Expression}

theorem error_of_blind (blind : Blind resolve) {function : String} {arguments : List Expression} :
    ∃ reason, resolve (.call function arguments) = .error reason := by
  cases resolved : resolve (.call function arguments) with
  | error reason => exact ⟨reason, rfl⟩
  | ok position => exact absurd resolved (blind function arguments position)

/-- Whether other expressions for placeholders stand for the values that are bound to them. -/
structure Represents (values others : List Value) (resolve : Resolver)
    (replacement : Nat → Expression) : Prop where
  operand : ∀ index, Agree (Operand.ofExpression values resolve (.parameter index))
    (Operand.ofExpression others resolve (replacement index))
  reading : ∀ index, Predicate.reading (Operand.ofExpression others resolve) (replacement index) =
    (Operand.ofExpression others resolve (replacement index)).map Predicate.ofOperand

/-- The literals for the values that are bound to placeholders. -/
theorem represents_filler :
    Represents values [] resolve (Language.fillerOf (literalsOf values)) where
  operand index := by
    cases found : values[index]? with
    | none =>
        have absent : (literalsOf values)[index]? = none := by
          rw [literalsOf, List.getElem?_map, found, Option.map_none]
        simp only [Language.fillerOf, absent, Operand.ofExpression, found]
        exact .of_error
    | some value =>
        have among : (literalsOf values)[index]? = some (Builder.literal value) := by
          rw [literalsOf, List.getElem?_map, found, Option.map_some]
        simp only [Language.fillerOf, among, Operand.ofExpression, found, ofLiteral_literal]
        exact .refl
  reading index := by
    unfold Language.fillerOf
    split <;> rfl

section Represents

variable {others : List Value} {replacement : Nat → Expression}
variable (represents : Represents values others resolve replacement) (blind : Blind resolve)
include represents blind

theorem operand_replaced :
    Agree (Operand.ofExpression values resolve expression)
      (Operand.ofExpression others resolve (expression.replaced replacement)) := by
  cases expression with
  | parameter index => exact represents.operand index
  | call function arguments =>
      rw [Expression.replaced, Expression.replacedList_eq, Operand.ofExpression,
        Operand.ofExpression]
      obtain ⟨reason, first⟩ := @error_of_blind _ blind function arguments
      obtain ⟨another, second⟩ := @error_of_blind _ blind function
        (arguments.map (Expression.replaced replacement))
      rw [first, second]
      exact .of_error
  | field relation name => exact .refl
  | literal value => exact .refl
  | _ => exact .of_error

theorem pattern_replaced {matched pattern : Expression} :
    Agree (Predicate.ofPattern (Operand.ofExpression values resolve) matched pattern)
      (Predicate.ofPattern (Operand.ofExpression others resolve) (matched.replaced replacement)
        (pattern.replaced replacement)) := by
  refine (operand_replaced represents blind).bind fun found => ?_
  split
  · exact .refl
  · exact (operand_replaced represents blind).bind fun _ => .refl
  · exact .of_error

theorem comparison_replaced {comparison : Comparison} {left right : Expression} :
    Agree (Predicate.ofComparison (Operand.ofExpression values resolve) comparison left right)
      (Predicate.ofComparison (Operand.ofExpression others resolve) comparison
        (left.replaced replacement) (right.replaced replacement)) :=
  (operand_replaced represents blind).bind fun _ =>
    (operand_replaced represents blind).bind fun _ => .refl

theorem predicate_replaced :
    Agree (Predicate.ofExpression values resolve expression)
      (Predicate.ofExpression others resolve (expression.replaced replacement)) := by
  have operand (expression : Expression) :=
    @operand_replaced values resolve expression others replacement represents blind
  rw [Predicate.ofExpression, Predicate.ofExpression]
  induction expression using Expression.induct with
  | field relation name => exact (operand (.field relation name)).map Predicate.ofOperand
  | call function arguments => exact (operand (.call function arguments)).map Predicate.ofOperand
  | literal value => exact .refl
  | star => exact .of_error
  | parameter index =>
      rw [Expression.replaced, represents.reading index]
      exact (represents.operand index).map Predicate.ofOperand
  | binary operator left right first second =>
      cases operator with
      | and | or => exact first.bind fun _ => second.bind fun _ => .refl
      | like => exact pattern_replaced represents blind
      | _ => exact comparison_replaced represents blind
  | not inner ih => exact ih.bind fun _ => .refl
  | isNull inner => exact (operand inner).bind fun _ => .refl
  | isIn inner items =>
      rw [Expression.replaced, Expression.replacedList_eq]
      exact (operand inner).bind fun _ => (Agree.mapM operand).bind fun _ => .refl
  | between inner low high =>
      exact (operand inner).bind fun _ => (operand low).bind fun _ => (operand high).bind fun _ => .refl

end Represents

/-- An operand is the value that is bound to it as well as the literal for this value. -/
theorem operand_filled (blind : Blind resolve) :
    Agree (Operand.ofExpression values resolve expression)
      (Operand.ofExpression [] resolve (expression.filled (literalsOf values))) :=
  operand_replaced represents_filler blind

theorem predicate_filled (blind : Blind resolve) :
    Agree (Predicate.ofExpression values resolve expression)
      (Predicate.ofExpression [] resolve (expression.filled (literalsOf values))) :=
  predicate_replaced represents_filler blind

theorem resolve_blind {table : Table} : Blind (Scope.ofTable table none).resolve := by
  intro function arguments position found
  rw [Scope.resolve] at found
  split at found
  · cases found
  · cases found

/-! ## Plans -/

variable {store : Store} {table : Table} {condition : Option Expression}

theorem constant_filled :
    Agree (PlanContext.constant ⟨store, values⟩ expression)
      (PlanContext.constant ⟨store, []⟩ (expression.filled (literalsOf values))) := by
  have blind : Blind fun expression => .error (.notConstant expression.render) := by
    intro function arguments position found
    cases found
  exact (operand_filled blind).bind fun _ => .refl

theorem predicate?_filled :
    Agree (PlanContext.predicate? ⟨store, values⟩ (.ofTable table none) condition)
      (PlanContext.predicate? ⟨store, []⟩ (.ofTable table none)
        (condition.map (Expression.filled (literalsOf values)))) := by
  cases condition with
  | none => exact .refl
  | some condition => exact (predicate_filled resolve_blind).map some

theorem planInsert_filled {insert : Language.Insert} {rows : List (List Expression)}
    (form : insert.source = .values rows) :
    Agree (planInsert ⟨store, values⟩ insert)
      (planInsert ⟨store, []⟩ (insert.replaced (Language.fillerOf (literalsOf values)))) := by
  rw [planInsert, planInsert, Language.Insert.replaced, form, Language.InsertSource.replaced]
  refine Agree.refl.bind fun table => Agree.refl.bind fun _ => ?_
  have listed : Agree (rows.mapM fun row => row.mapM (PlanContext.constant ⟨store, values⟩))
      ((rows.map (List.map (Expression.filled (literalsOf values)))).mapM fun row =>
        row.mapM (PlanContext.constant ⟨store, []⟩)) :=
    .mapM fun row => .mapM fun expression => constant_filled
  exact (listed.map QueryPlan.values).bind fun _ => .refl

theorem planAssignment_filled {assignment : String × Expression} :
    Agree (planAssignment ⟨store, values⟩ table (.ofTable table none) assignment)
      (planAssignment ⟨store, []⟩ table (.ofTable table none)
        (Language.assignmentReplaced (Language.fillerOf (literalsOf values)) assignment)) :=
  Agree.refl.bind fun _ => (operand_filled resolve_blind).bind fun _ => .refl

theorem planUpdate_filled {update : Language.Update} :
    Agree (planUpdate ⟨store, values⟩ update)
      (planUpdate ⟨store, []⟩ (update.replaced (Language.fillerOf (literalsOf values)))) := by
  refine Agree.refl.bind fun table => predicate?_filled.bind fun filter => ?_
  exact (Agree.mapM fun assignment => planAssignment_filled).bind fun _ => .refl

theorem planDelete_filled {delete : Language.Delete} :
    Agree (planDelete ⟨store, values⟩ delete)
      (planDelete ⟨store, []⟩ (delete.replaced (Language.fillerOf (literalsOf values)))) :=
  Agree.refl.bind fun _ => predicate?_filled.bind fun _ => .refl

/-- A change of rows is planned with values bound to its placeholders as it is with literals. -/
theorem planStatement_filled {found : Statement} (changes : found.ChangesRows) :
    Agree (planStatement ⟨store, values⟩ found)
      (planStatement ⟨store, []⟩ (found.filled (literalsOf values))) := by
  cases found with
  | insert body =>
      obtain ⟨rows, form⟩ := changes
      exact planInsert_filled form
  | update body => exact planUpdate_filled
  | delete body => exact planDelete_filled
  | _ => exact changes.elim

end Plans

/-! ## Running -/

namespace Language.Statement

variable {literals : List Literal} {found : Statement}

theorem ChangesRows.filled (changes : found.ChangesRows) : (found.filled literals).ChangesRows := by
  cases found with
  | insert body =>
      obtain ⟨rows, form⟩ := changes
      refine ⟨rows.map (List.map (Expression.filled literals)), ?_⟩
      change body.source.replaced _ = _
      rw [form]
      rfl
  | update body => trivial
  | delete body => trivial
  | _ => exact changes.elim

theorem type_filled : (found.filled literals).type = found.type := by
  cases found <;> rfl

/-- Literals give no reason for other remarks than placeholders do. -/
theorem diagnosis_filled (changes : found.ChangesRows) :
    (found.filled literals).diagnosis = found.diagnosis := by
  cases found with
  | insert body =>
      obtain ⟨rows, form⟩ := changes
      have same : (body.replaced (fillerOf literals)).diagnosis = body.diagnosis := by
        obtain ⟨resolution, table, columns, source⟩ := body
        obtain rfl : source = .values rows := form
        rw [Insert.replaced, InsertSource.replaced]
        cases columns with
        | none =>
            cases rows with
            | nil => rfl
            | cons first rest => simp [Insert.diagnosis, Function.comp_def]
        | some columns =>
            cases columns with
            | nil => rfl
            | cons first rest =>
                simp only [Insert.diagnosis, List.find?_map, Function.comp_def, List.length_map]
                cases rows.find? fun row => row.length != (first :: rest).length with
                | none => rfl
                | some row => simp only [Option.map_some, List.length_map]
      exact same
  | update body =>
      obtain ⟨resolution, table, assignments, condition⟩ := body
      cases condition <;> rfl
  | delete body =>
      obtain ⟨table, condition⟩ := body
      cases condition <;> rfl
  | _ => exact changes.elim

end Language.Statement

/-- The text of a statement with values in the places of its placeholders, written as literals. -/
def Language.boundText (sql : String) (values : List Value) : String :=
  fill sql ((literalsOf values).map fun value => (Expression.literal value).render)

/-- The number of placeholders in a text that holds a change of rows. -/
def Language.changePlaceholders? (text : String) : Option Nat :=
  match parseStatement text with
  | .ok (found, count) => if found.ChangesRows then some count else none
  | .error _ => none

theorem Language.of_changePlaceholders? {text : String} {count : Nat}
    (told : changePlaceholders? text = some count) :
    ∃ found : Statement, found.ChangesRows ∧ parseStatement text = .ok (found, count) := by
  rw [changePlaceholders?] at told
  split at told
  · rename_i found number read
    split at told
    · cases told
      exact ⟨found, ‹_›, read⟩
    · cases told
  · cases told

namespace Database

variable {database : Database} {request : Request} {found : Statement} {count : Nat}

/-- What is reported of a plan, unless it fails. -/
def answerPlan (database : Database) (plan : Plan) : Except Error (Database × Outcome) :=
  match database.runPlan plan with
  | (after, .ok outcome) => .ok (after, outcome)
  | (_, .error error) => .error error

/-- A change of rows is checked, planned and run. -/
theorem query_changes (changes : found.ChangesRows)
    (read : Language.parseStatement request.sql = .ok (found, count)) :
    database.query request = (do
      database.check ⟨Text.trim request.sql, found, count, found.diagnosis⟩ request
      let plan ← planStatement ⟨database.state.store, request.parameters⟩ found
      database.answerPlan plan) := by
  have parsed : Language.parse request.sql =
      .ok ⟨Text.trim request.sql, found, count, found.diagnosis⟩ := by
    rw [Language.parse, read]
    rfl
  have planned : database.run found request.parameters =
      database.runPlanned found request.parameters := by
    cases found <;> first | rfl | exact changes.elim
  simp only [query_eq, perform_eq, parse_eq, parsed, performParsed_eq]
  cases database.check ⟨Text.trim request.sql, found, count, found.diagnosis⟩ request with
  | error error => rfl
  | ok _ =>
      rw [planned, ok_bind, runPlanned]
      cases planStatement ⟨database.state.store, request.parameters⟩ found <;> rfl

theorem check_bound {parsed : Language.ParsedStatement}
    (counted : parsed.parameters = request.parameters.length)
    (proper : strayReal? request.parameters = none) :
    database.check parsed request = (do
      database.authorize request.caller parsed.statement.type
      parsed.diagnosis.check) := by
  rw [check, proper, counted, if_neg (fun differs => differs rfl)]
  congr 1
  funext _
  exact bind_pure parsed.diagnosis.check

theorem strayReal?_none {values : List Value}
    (finite : ∀ x, .real x ∈ values → x.isFinite = true) : strayReal? values = none := by
  rw [strayReal?, List.findSome?_eq_none_iff]
  rintro value member
  cases value with
  | real x => exact if_pos (finite x member)
  | _ => rfl

theorem writable_literalsOf {values : List Value}
    (finite : ∀ x, .real x ∈ values → x.isFinite = true) :
    Language.Writable (literalsOf values) := by
  rintro literal member x rfl
  obtain ⟨value, among, made⟩ := List.mem_map.mp member
  cases value with
  | real number =>
      cases made
      exact finite x among
  | _ => cases made

/-- A change of rows, run with values for its placeholders, gives what it gives when these values
are written in its text as literals. Infinite and undefined reals are no values to run with. -/
theorem query_bound_iff_literal (database : Database) (caller : Caller) {sql : String}
    {values : List Value} (finite : ∀ x, .real x ∈ values → x.isFinite = true)
    (changes : found.ChangesRows)
    (read : Language.parseStatement sql = .ok (found, values.length))
    (after : Database) (outcome : Outcome) :
    database.query { sql, parameters := values, caller } = .ok (after, outcome) ↔
      database.query { sql := Language.boundText sql values, parameters := [], caller } =
        .ok (after, outcome) := by
  have counted : (literalsOf values).length = values.length := List.length_map _
  have reread : Language.parseStatement (Language.boundText sql values) =
      .ok (found.filled (literalsOf values), 0) :=
    Language.parseStatement_fill (writable_literalsOf finite) changes (counted.symm ▸ read)
  generalize Language.boundText sql values = text at reread
  let bound : Request := { sql, parameters := values, caller }
  let literal : Request := { sql := text, parameters := [], caller }
  have first := @query_changes database bound _ _ changes read
  have second := @query_changes database literal _ _ changes.filled reread
  rw [check_bound rfl (strayReal?_none finite)] at first
  rw [check_bound rfl rfl, Statement.type_filled, Statement.diagnosis_filled changes] at second
  refine Agree.eq_ok_iff ?_
  rw [first, second]
  exact Agree.refl.bind fun _ => (planStatement_filled changes).bind fun _ => .refl

/-- Quotes, semicolons, comments and placeholders in a text are part of the text, and the least
integer can be written. -/
theorem bound_syntax_inserted :
    let database := fromTexts ["CREATE TABLE t (a TEXT, b INTEGER, c TEXT)"]
    let request : Request :=
      { sql := "INSERT INTO t (a, b, c) VALUES (?, ?, ?)"
        parameters := [.text "x'); DROP TABLE t; -- ?", .integer Int64.minValue, .null]
        caller := .local }
    let written :=
      "INSERT INTO t (a, b, c) VALUES ( 'x''); DROP TABLE t; -- ?' ,  -9223372036854775808 ,  NULL )"
    (database.perform request).2 = .ok (.inserted 1 (some 1)) ∧
    Language.boundText request.sql request.parameters = written ∧
    database.query { request with sql := written, parameters := [] } =
      .ok ((database.perform request).1, .inserted 1 (some 1)) := by
  intro database request written
  have performed : (database.perform request).2 = .ok (.inserted 1 (some 1)) := by decide +kernel
  have text : Language.boundText request.sql request.parameters = written := by decide +kernel
  have placeholders : Language.changePlaceholders? request.sql = some request.parameters.length := by
    decide +kernel
  have finite : ∀ x, .real x ∈ request.parameters → x.isFinite = true := by
    simp [request]
  clear_value database request written
  obtain ⟨found, changes, read⟩ := Language.of_changePlaceholders? placeholders
  have ran := query_bound_iff_literal database request.caller finite changes read
  rw [text] at ran
  exact ⟨performed, text, (ran _ _).mp (query_of_perform performed)⟩

end Database

end Coffer
