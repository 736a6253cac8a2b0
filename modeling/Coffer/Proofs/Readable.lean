import Coffer.Proofs.Rounding
import Coffer.Proofs.Reading

namespace Coffer.Language

/-! # Expressions that can be read

What the expressions have in common that come out of the reader, and what more it takes for
one of them to be read back from its rendering.
-/

namespace Expression

/-- Induction on expressions, over the arguments of a call and the items of a list too. -/
theorem induct {motive : Expression → Prop}
    (field : ∀ relation name, motive (.field relation name))
    (literal : ∀ value, motive (.literal value))
    (parameter : ∀ index, motive (.parameter index))
    (call : ∀ function arguments, (∀ argument ∈ arguments, motive argument) →
      motive (.call function arguments))
    (star : motive .star)
    (binary : ∀ operator left right, motive left → motive right →
      motive (.binary operator left right))
    (not : ∀ operand, motive operand → motive (.not operand))
    (isNull : ∀ operand, motive operand → motive (.isNull operand))
    (isIn : ∀ operand items, motive operand → (∀ item ∈ items, motive item) →
      motive (.isIn operand items))
    (between : ∀ operand low high, motive operand → motive low → motive high →
      motive (.between operand low high))
    (expression : Expression) : motive expression :=
  @Expression.rec motive (fun expressions => ∀ item ∈ expressions, motive item)
    field literal parameter call star binary not isNull isIn between nofun
    (fun _ _ first others => List.forall_mem_cons.mpr ⟨first, others⟩) expression

variable {expressions : List Expression}

theorem partsOfList_eq : partsOfList expressions = expressions.flatMap parts := by
  induction expressions with
  | nil => rfl
  | cons first others ih => rw [partsOfList, ih, List.flatMap_cons]

theorem marksOfList_eq : marksOfList expressions = expressions.map marks := by
  induction expressions with
  | nil => rfl
  | cons first others ih => rw [marksOfList, ih, List.map_cons]

def index? : Expression → Option Nat
  | .parameter index => some index
  | _ => none

/-- The numbers of the placeholders in an expression, in the order in which they stand. -/
def placeholders (expression : Expression) : List Nat :=
  expression.parts.filterMap index?

section Placeholders

variable {function : String} {arguments items : List Expression} {operator : Operator}
variable {left right operand low high : Expression}

theorem filterMap_flatMap_parts :
    (expressions.flatMap parts).filterMap index? = expressions.flatMap placeholders := by
  induction expressions with
  | nil => rfl
  | cons first others ih =>
      rw [List.flatMap_cons, List.filterMap_append, ih, List.flatMap_cons, placeholders]

theorem placeholders_field {relation : Option String} {name : String} :
    placeholders (.field relation name) = [] := rfl

theorem placeholders_literal {value : Literal} : placeholders (.literal value) = [] := rfl

theorem placeholders_parameter {index : Nat} : placeholders (.parameter index) = [index] := rfl

theorem placeholders_star : placeholders .star = [] := rfl

theorem placeholders_call :
    placeholders (.call function arguments) = arguments.flatMap placeholders := by
  rw [placeholders, parts, partsOfList_eq, List.filterMap_cons_none rfl, filterMap_flatMap_parts]

theorem placeholders_binary :
    placeholders (.binary operator left right) = left.placeholders ++ right.placeholders := by
  rw [placeholders, parts, List.filterMap_cons_none rfl, List.filterMap_append]
  rfl

theorem placeholders_not : placeholders (.not operand) = operand.placeholders := by
  rw [placeholders, parts, List.filterMap_cons_none rfl, placeholders]

theorem placeholders_isNull : placeholders (.isNull operand) = operand.placeholders := by
  rw [placeholders, parts, List.filterMap_cons_none rfl, placeholders]

theorem placeholders_isIn :
    placeholders (.isIn operand items) =
      operand.placeholders ++ items.flatMap placeholders := by
  rw [placeholders, parts, partsOfList_eq, List.filterMap_cons_none rfl, List.filterMap_append,
    filterMap_flatMap_parts]
  rfl

theorem placeholders_between :
    placeholders (.between operand low high) =
      operand.placeholders ++ (low.placeholders ++ high.placeholders) := by
  rw [placeholders, parts, List.filterMap_cons_none rfl, List.filterMap_append,
    List.filterMap_append]
  rfl

end Placeholders

/-- The expressions that come out of the reader: reals are finite, a star stands only for the
rows that COUNT counts, and a list after IN is not empty. -/
inductive Readable : Expression → Prop where
  | field {relation : Option String} {name : String} : Readable (.field relation name)
  | literal {value : Literal} (finite : ∀ x, value = .real x → x.isFinite = true) :
      Readable (.literal value)
  | parameter {index : Nat} : Readable (.parameter index)
  | call {function : String} {arguments : List Expression}
      (starred : .star ∈ arguments → function = "COUNT")
      (all : ∀ argument ∈ arguments, argument ≠ .star → Readable argument) :
      Readable (.call function arguments)
  | binary {operator : Operator} {left right : Expression} (first : Readable left)
      (second : Readable right) : Readable (.binary operator left right)
  | not {operand : Expression} (only : Readable operand) : Readable (.not operand)
  | isNull {operand : Expression} (only : Readable operand) : Readable (.isNull operand)
  | isIn {operand : Expression} {items : List Expression} (first : Readable operand)
      (nonempty : items ≠ []) (all : ∀ item ∈ items, Readable item) :
      Readable (.isIn operand items)
  | between {operand low high : Expression} (first : Readable operand) (second : Readable low)
      (third : Readable high) : Readable (.between operand low high)

/-- Whether an expression is set off from the operators around it as the reader needs it. The
reader takes an order comparison that follows BETWEEN into the upper bound. -/
def isSetOff : Expression → Bool
  | .binary operator (.between ..) _ => operator.precedence != 5
  | .call function _ => Text.upperCase function == function
  | _ => true

/-- How tightly an operator after the expression has to bind to be taken into it. -/
def edge : Expression → Nat
  | .binary operator .. => operator.precedence + 1
  | .not _ => 3
  | .between .. => 5
  | _ => 10

theorem precedence_le_edge {expression : Expression} : expression.precedence ≤ expression.edge := by
  cases expression with
  | binary operator left right => exact Nat.le_succ _
  | _ => simp [precedence, edge]

/-- An expression that can be read and whose parts are set off, so that it is read back. -/
structure Faithful (expression : Expression) : Prop where
  readable : expression.Readable
  setOff : ∀ part ∈ expression.parts, part.isSetOff = true

end Expression

end Coffer.Language
