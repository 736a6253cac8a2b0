import Coffer.Language.Reading.Expression
import Coffer.Language.Rendering
import Coffer.Predicate.Basic
import Coffer.Predicate.PatternSize

namespace Coffer

/-! # Compiling conditions

Expressions become operands and predicates. Fields and function calls are positions
that a resolver finds; placeholders are bound to the values given for them.
-/

/-- The position that a field or a call stands for in the tuples of a source. -/
abbrev Resolver := Language.Expression → Except Error Nat

namespace Operand

/-- The operand a field, a call or a constant stands for. -/
def ofExpression (parameters : List Value) (resolve : Resolver)
    (expression : Language.Expression) : Except Error Operand :=
  match expression with
  | .literal literal => .ok (.constant (.ofLiteral literal))
  | .parameter index =>
    match parameters[index]? with
    | some value => .ok (.constant value)
    | none => .error (.parameterCount (index + 1) parameters.length)
  | .field .. | .call .. => (resolve expression).map .column
  | _ => .error (.notOperand expression.render)

end Operand

namespace Predicate

/-- An operand taken as a condition. -/
def ofOperand : Operand → Predicate
  | .constant value => .constant value.truth
  | .column position => .truthy (.column position)

/-- The predicate of a pattern match. The pattern has to be constant and of a limited size;
a null as the pattern leaves the match unknown. -/
def ofPattern (operand : Language.Expression → Except Error Operand)
    (matched pattern : Language.Expression) : Except Error Predicate := do
  match ← operand pattern with
  | .constant .null => return .constant none
  | .constant value =>
    let matched ← operand matched
    let pattern := Pattern.ofText value.written
    if pattern.fits then return .like matched pattern else throw .patternTooLarge
  | .column _ => throw (.patternNotConstant pattern.render)

def ofComparison (operand : Language.Expression → Except Error Operand) (comparison : Comparison)
    (left right : Language.Expression) : Except Error Predicate := do
  let left ← operand left
  let right ← operand right
  return .compare comparison left right

/-- The predicate an expression stands for, given how its operands are read. -/
def reading (operand : Language.Expression → Except Error Operand) :
    Language.Expression → Except Error Predicate
  | .literal literal => .ok (.constant (Value.ofLiteral literal).truth)
  | .star => .error .strayStar
  | .binary .and left right => return .and (← reading operand left) (← reading operand right)
  | .binary .or left right => return .or (← reading operand left) (← reading operand right)
  | .binary .like left right => ofPattern operand left right
  | .binary .equal left right => ofComparison operand .equal left right
  | .binary .notEqual left right => ofComparison operand .notEqual left right
  | .binary .greater left right => ofComparison operand .greater left right
  | .binary .greaterOrEqual left right => ofComparison operand .greaterOrEqual left right
  | .binary .less left right => ofComparison operand .less left right
  | .binary .lessOrEqual left right => ofComparison operand .lessOrEqual left right
  | .not expression => return .not (← reading operand expression)
  | .isNull expression => return .isNull (← operand expression)
  | .isIn expression items => return .isIn (← operand expression) (← items.mapM operand)
  | .between expression low high =>
    return .between (← operand expression) (← operand low) (← operand high)
  | expression => (operand expression).map ofOperand

def ofExpression (parameters : List Value) (resolve : Resolver) :
    Language.Expression → Except Error Predicate :=
  reading (Operand.ofExpression parameters resolve)

/-- Finds a column in a list of names: by its qualified name if it has one, and else by
its own. -/
def resolveColumn (columns : List String) : Resolver
  | .field relation name =>
    let qualified := relation.bind fun relation => columns.idxOf? s!"{relation}.{name}"
    match qualified.or (columns.idxOf? name) with
    | some position => .ok position
    | none => .error (.columnNotFound (Language.Expression.field relation name).render)
  | expression => .error (.functionInPredicate expression.render)

/-- The predicate a text stands for, over tuples with the given columns. -/
def compile (text : String) (parameters : List Value) (columns : List String) :
    Except Error Predicate := do
  ofExpression parameters (resolveColumn columns) (← Language.parseExpression text)

end Predicate

end Coffer
