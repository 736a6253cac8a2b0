import Coffer.Number.Binary64

namespace Coffer.Language

/-! # Expressions -/

inductive Literal where
  | null
  | boolean (truth : Bool)
  | integer (number : Int64)
  | real (number : Binary64)
  | string (content : String)
  deriving DecidableEq, Repr

/-- Equality by value, under which the real zeros are one. -/
def Literal.same : Literal → Literal → Bool
  | .real first, .real second => first.equals second
  | first, second => first == second

/-- Operators between two expressions. -/
inductive Operator where
  | or | and | equal | notEqual | greater | greaterOrEqual | less | lessOrEqual | like
  deriving DecidableEq, Repr

inductive Expression where
  /-- A column, possibly qualified by the name of its relation. -/
  | field (relation : Option String) (name : String)
  | literal (value : Literal)
  /-- A placeholder, numbered from zero in order of occurrence. -/
  | parameter (index : Nat)
  | call (function : String) (arguments : List Expression)
  /-- The argument of `COUNT(*)`. -/
  | star
  | binary (operator : Operator) (left right : Expression)
  | not (operand : Expression)
  | isNull (operand : Expression)
  | isIn (operand : Expression) (items : List Expression)
  | between (operand low high : Expression)
  deriving Repr, Inhabited

/-- The functions that combine the rows of a group. -/
def aggregateNames : List String :=
  ["COUNT", "SUM", "AVG", "MIN", "MAX"]

namespace Expression

mutual
/-- The expression and all expressions in it, each before its own parts. -/
def parts : Expression → List Expression
  | .call function arguments => .call function arguments :: partsOfList arguments
  | .binary operator left right => .binary operator left right :: (left.parts ++ right.parts)
  | .not operand => .not operand :: operand.parts
  | .isNull operand => .isNull operand :: operand.parts
  | .isIn operand items => .isIn operand items :: (operand.parts ++ partsOfList items)
  | .between operand low high =>
    .between operand low high :: (operand.parts ++ (low.parts ++ high.parts))
  | .field relation name => [.field relation name]
  | .literal value => [.literal value]
  | .parameter index => [.parameter index]
  | .star => [.star]

def partsOfList : List Expression → List Expression
  | [] => []
  | first :: rest => first.parts ++ partsOfList rest
end

mutual
/-- Equality by value: literals are compared as numbers where they are reals. -/
def same : Expression → Expression → Bool
  | .field relation name, .field relation' name' => relation == relation' && name == name'
  | .literal value, .literal value' => value.same value'
  | .parameter index, .parameter index' => index == index'
  | .call function arguments, .call function' arguments' =>
    function == function' && sameList arguments arguments'
  | .star, .star => true
  | .binary operator left right, .binary operator' left' right' =>
    operator == operator' && left.same left' && right.same right'
  | .not operand, .not operand' => operand.same operand'
  | .isNull operand, .isNull operand' => operand.same operand'
  | .isIn operand items, .isIn operand' items' => operand.same operand' && sameList items items'
  | .between operand low high, .between operand' low' high' =>
    operand.same operand' && low.same low' && high.same high'
  | _, _ => false

def sameList : List Expression → List Expression → Bool
  | [], [] => true
  | first :: rest, first' :: rest' => first.same first' && sameList rest rest'
  | _, _ => false
end

def isAggregateCall : Expression → Bool
  | .call function _ => aggregateNames.contains function
  | _ => false

def isField : Expression → Bool
  | .field .. => true
  | _ => false

def containsAggregate (expression : Expression) : Bool :=
  expression.parts.any isAggregateCall

def containsField (expression : Expression) : Bool :=
  expression.parts.any isField

end Expression

end Coffer.Language
