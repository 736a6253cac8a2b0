import Coffer.Builder.Change
import Coffer.Builder.Definition
import Coffer.Proofs.ReadableStatement

namespace Coffer.Language

/-! # Replaced placeholders

Queries and changes of rows with other expressions for their placeholders, each told by the number
of its placeholder.
-/

namespace Expression

mutual
/-- The expression with other ones for its placeholders. -/
def replaced (replacement : Nat → Expression) : Expression → Expression
  | .parameter index => replacement index
  | .call function arguments => .call function (replacedList replacement arguments)
  | .binary operator left right =>
    .binary operator (left.replaced replacement) (right.replaced replacement)
  | .not operand => .not (operand.replaced replacement)
  | .isNull operand => .isNull (operand.replaced replacement)
  | .isIn operand items => .isIn (operand.replaced replacement) (replacedList replacement items)
  | .between operand low high =>
    .between (operand.replaced replacement) (low.replaced replacement) (high.replaced replacement)
  | .field relation name => .field relation name
  | .literal value => .literal value
  | .star => .star

def replacedList (replacement : Nat → Expression) : List Expression → List Expression
  | [] => []
  | first :: rest => first.replaced replacement :: replacedList replacement rest
end

variable {replacement : Nat → Expression}

theorem replacedList_eq {expressions : List Expression} :
    replacedList replacement expressions = expressions.map (replaced replacement) := by
  induction expressions with
  | nil => rfl
  | cons first rest ih => rw [replacedList, ih, List.map_cons]

end Expression

variable (replacement : Nat → Expression)

def SelectItem.replaced : SelectItem → SelectItem
  | .expression value asName => .expression (value.replaced replacement) asName
  | item => item

def Join.replaced (join : Join) : Join :=
  { join with condition := join.condition.map (Expression.replaced replacement) }

def OrderTerm.replaced (term : OrderTerm) : OrderTerm :=
  { term with key := term.key.replaced replacement }

def Select.replaced (select : Select) : Select :=
  { select with
    items := select.items.map (SelectItem.replaced replacement)
    joins := select.joins.map (Join.replaced replacement)
    condition := select.condition.map (Expression.replaced replacement)
    grouping := select.grouping.map (Expression.replaced replacement)
    having := select.having.map (Expression.replaced replacement)
    ordering := select.ordering.map (OrderTerm.replaced replacement) }

def InsertSource.replaced : InsertSource → InsertSource
  | .values rows => .values (rows.map (List.map (Expression.replaced replacement)))
  | .query select => .query (select.replaced replacement)

def Insert.replaced (insert : Insert) : Insert :=
  { insert with source := insert.source.replaced replacement }

def assignmentReplaced (assignment : String × Expression) : String × Expression :=
  (assignment.1, assignment.2.replaced replacement)

def Update.replaced (update : Update) : Update :=
  { update with
    assignments := update.assignments.map (assignmentReplaced replacement)
    condition := update.condition.map (Expression.replaced replacement) }

def Delete.replaced (delete : Delete) : Delete :=
  { delete with condition := delete.condition.map (Expression.replaced replacement) }

/-- A query or a change of rows with other expressions for its placeholders. -/
def Statement.replaced : Statement → Statement
  | .select body => .select (body.replaced replacement)
  | .insert body => .insert (body.replaced replacement)
  | .update body => .update (body.replaced replacement)
  | .delete body => .delete (body.replaced replacement)
  | statement => statement

/-! ## Rendering -/

section Rendering

variable {index : Nat}

namespace Expression

theorem precedence_renumbered {expression : Expression} :
    (expression.replaced fun _ => .parameter index).precedence = expression.precedence := by
  cases expression <;> rfl

theorem guarded_renumbered {operand : Expression} {marks : List Mark} {place : Nat} :
    (operand.replaced fun _ => .parameter index).guarded marks place = operand.guarded marks place := by
  rw [guarded, precedence_renumbered, guarded]

/-- Placeholders are written alike, whatever their numbers. -/
theorem marks_renumbered {expression : Expression} :
    (expression.replaced fun _ => .parameter index).marks = expression.marks := by
  have listed {expressions : List Expression}
      (all : ∀ item ∈ expressions, (item.replaced fun _ => .parameter index).marks = item.marks) :
      marksOfList (replacedList (fun _ => .parameter index) expressions) = marksOfList expressions := by
    rw [replacedList_eq, marksOfList_eq, marksOfList_eq, List.map_map]
    exact List.map_congr_left all
  induction expression using induct with
  | field | literal | parameter | star => rfl
  | call function arguments all => rw [replaced, marks, marks, listed all]
  | binary operator left right first second =>
      rw [replaced, marks, marks, first, second, guarded_renumbered, guarded_renumbered]
  | not operand only => rw [replaced, marks, marks, only, guarded_renumbered]
  | isNull operand only => rw [replaced, marks, marks, only, guarded_renumbered]
  | isIn operand items first all =>
      rw [replaced, marks, marks, first, guarded_renumbered, listed all]
  | between operand low high first second third =>
      rw [replaced, marks, marks, first, second, third, guarded_renumbered, guarded_renumbered,
        guarded_renumbered]

end Expression

theorem optionalClause_renumbered {words : List Keyword} {condition : Option Expression} :
    optionalClause words (condition.map (Expression.replaced fun _ => .parameter index)) =
      optionalClause words condition := by
  cases condition with
  | none => rfl
  | some condition => rw [Option.map_some, optionalClause, Expression.marks_renumbered, optionalClause]

theorem SelectItem.marks_renumbered {item : SelectItem} :
    (item.replaced fun _ => .parameter index).marks = item.marks := by
  cases item with
  | expression value asName =>
      cases asName <;> simp only [SelectItem.replaced, SelectItem.marks, Expression.marks_renumbered]
  | _ => rfl

theorem Join.marks_renumbered {join : Join} :
    (join.replaced fun _ => .parameter index).marks = join.marks := by
  rw [Join.marks, Join.replaced, optionalClause_renumbered, Join.marks]

theorem OrderTerm.marks_renumbered {term : OrderTerm} :
    (term.replaced fun _ => .parameter index).marks = term.marks := by
  rw [OrderTerm.marks, OrderTerm.replaced, Expression.marks_renumbered, OrderTerm.marks]

theorem Select.marks_renumbered {select : Select} :
    (select.replaced fun _ => .parameter index).marks = select.marks := by
  simp only [Select.marks, Select.replaced, List.map_map, List.flatMap_map, List.isEmpty_map,
    optionalClause_renumbered, Function.comp_def, SelectItem.marks_renumbered,
    Join.marks_renumbered, Expression.marks_renumbered, OrderTerm.marks_renumbered]
  rfl

theorem InsertSource.marks_renumbered {source : InsertSource} :
    (source.replaced fun _ => .parameter index).marks = source.marks := by
  cases source with
  | values rows =>
      simp only [InsertSource.marks, InsertSource.replaced, List.map_map, Function.comp_def,
        Expression.marks_renumbered]
  | query select => rw [InsertSource.replaced, InsertSource.marks, Select.marks_renumbered, InsertSource.marks]

/-- A query or a change of rows is written alike, whatever the numbers of its placeholders. -/
theorem Statement.render_renumbered {statement : Statement} :
    (statement.replaced fun _ => .parameter index).render = statement.render := by
  have same : (statement.replaced fun _ => .parameter index).marks = statement.marks := by
    cases statement with
    | select body => exact Select.marks_renumbered
    | insert body =>
        change (body.replaced fun _ => .parameter index).marks = body.marks
        rw [Insert.marks, Insert.replaced, InsertSource.marks_renumbered, Insert.marks]
    | update body =>
        change (body.replaced fun _ => .parameter index).marks = body.marks
        simp only [Update.marks, Update.replaced, assignmentReplaced, List.map_map,
          Function.comp_def, optionalClause_renumbered, Expression.marks_renumbered]
    | delete body =>
        change (body.replaced fun _ => .parameter index).marks = body.marks
        rw [Delete.marks, Delete.replaced, optionalClause_renumbered, Delete.marks]
    | _ => rfl
  rw [Statement.render, same, Statement.render]

end Rendering

/-! ## Literals -/

/-- The literals that values are written as. -/
def literalsOf (values : List Value) : List Literal :=
  values.map Builder.literal

/-- What a placeholder becomes for which there may be a literal. -/
def fillerOf (values : List Literal) (index : Nat) : Expression :=
  match values[index]? with
  | some value => .literal value
  | none => .parameter index

/-- The expression with literals for its placeholders. -/
def Expression.filled (values : List Literal) : Expression → Expression :=
  replaced (fillerOf values)

namespace Expression

variable {values : List Literal}

theorem filled_literal {value : Literal} : filled values (.literal value) = .literal value := rfl

theorem filled_parameter {index : Nat} {value : Literal} (found : values[index]? = some value) :
    filled values (.parameter index) = .literal value := by
  rw [filled, replaced, fillerOf, found]

theorem filled_call {function : String} {arguments : List Expression} :
    filled values (.call function arguments) = .call function (arguments.map (filled values)) := by
  rw [filled, replaced, replacedList_eq]

theorem filled_isIn {operand : Expression} {items : List Expression} :
    filled values (.isIn operand items) =
      .isIn (operand.filled values) (items.map (filled values)) := by
  rw [filled, replaced, replacedList_eq]

end Expression

/-- A query or a change of rows with literals for its placeholders. -/
def Statement.filled (values : List Literal) : Statement → Statement :=
  replaced (fillerOf values)

end Coffer.Language
