import Coffer.Language.Rendering
import Coffer.Value.Basic

namespace Coffer.Builder

/-! # Bound conditions

Statements are built with a placeholder for every value, beside the list of the values
in the order in which their placeholders are written. What the placeholders are numbered
is left to the reading of the text, so that conditions can be put together in any order.
-/

open Coffer.Language (Expression Operator)

/-- A statement with a value for each of its placeholders. -/
structure Prepared where
  statement : Language.Statement
  parameters : List Value

def Prepared.sql (prepared : Prepared) : String :=
  prepared.statement.render

/-- The column of a name, which is qualified up to the first point in it. -/
def column (name : String) : Expression :=
  match name.toList.span fun c => c != '.' with
  | (relation, _ :: rest) => .field (some (String.ofList relation)) (String.ofList rest)
  | _ => .field none name

def placeholder : Expression := .parameter 0

/-- A condition on rows with the values of its placeholders. -/
structure Condition where
  expression : Expression
  values : List Value

namespace Condition

def compare (operator : Operator) (name : String) (value : Value) : Condition :=
  ⟨.binary operator (column name) placeholder, [value]⟩

/-- A column equal to one of several values. -/
def isIn (name : String) (values : List Value) : Condition :=
  ⟨.isIn (column name) (values.map fun _ => placeholder), values⟩

def between (name : String) (low high : Value) : Condition :=
  ⟨.between (column name) placeholder placeholder, [low, high]⟩

def isNull (name : String) : Condition :=
  ⟨.isNull (column name), []⟩

/-- Two columns with equal values. -/
def sameColumns (left right : String) : Condition :=
  ⟨.binary .equal (column left) (column right), []⟩

def both (left right : Condition) : Condition :=
  ⟨.binary .and left.expression right.expression, left.values ++ right.values⟩

def either (left right : Condition) : Condition :=
  ⟨.binary .or left.expression right.expression, left.values ++ right.values⟩

def negate (condition : Condition) : Condition :=
  ⟨.not condition.expression, condition.values⟩

def notNull (name : String) : Condition :=
  (isNull name).negate

/-- A condition on top of one that may be there already. -/
def onTopOf (former : Option Condition) (condition : Condition) : Option Condition :=
  match former with
  | some former => some (former.both condition)
  | none => some condition

end Condition

def expression? (condition : Option Condition) : Option Expression :=
  condition.map Condition.expression

def valuesOf : Option Condition → List Value
  | some condition => condition.values
  | none => []

end Coffer.Builder
