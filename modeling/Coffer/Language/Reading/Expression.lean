import Coffer.Language.Reading.Cursor
import Coffer.Language.Rendering

namespace Coffer.Language

/-! # Reading expressions

Expressions are read by precedence climbing. An operator is taken only where it binds
at least as tightly as the floor of its place: OR, AND, NOT, equality and LIKE, order,
the tests IS NULL, IN, BETWEEN and NOT LIKE, and signs, from loosest to tightest.
-/

/-- How tightly order comparisons bind; also the floor for bounds and patterns. -/
def comparisonPrecedence : Nat := 5

/-- How tightly the tests after an operand bind. -/
def testPrecedence : Nat := 6

/-- How tightly signs bind, which stand before numbers only. -/
def signPrecedence : Nat := 9

/-- The literal a number stands for. Digits alone make an integer. -/
def numberLiteral (negative : Bool) (text : String) : Except Error Literal :=
  let signed := if negative then '-' :: text.toList else text.toList
  if text.toList.all Text.isDigit then
    match Numeral.int64 signed with
    | .ok number => .ok (.integer number)
    | .error fault => .error (.integer fault)
  else
    match Numeral.real? signed with
    | some number =>
      if number.isFinite then .ok (.real number)
      else .error (.numberRange (String.ofList signed))
    | none => .error (.numberRange (String.ofList signed))

/-- A minus sign applied to an operand that was read already. -/
def negated : Expression → Except Error Expression
  | .literal (.integer number) =>
    if number = Int64.minValue then .error (.negatedRange number)
    else .ok (.literal (.integer (-number)))
  | .literal (.real number) => .ok (.literal (.real number.neg))
  | operand => .error (.expectedNumberAfterSign operand.render)

/-- A plus sign applied to an operand. -/
def affirmed : Expression → Except Error Expression
  | .literal (.integer number) => .ok (.literal (.integer number))
  | .literal (.real number) => .ok (.literal (.real number))
  | operand => .error (.expectedNumberAfterSign operand.render)

/-- The operator between expressions that a token stands for. -/
def operator? : Token → Option Operator
  | .keyword .and => some .and
  | .keyword .like => some .like
  | .keyword .or => some .or
  | .symbol .equal => some .equal
  | .symbol .greater => some .greater
  | .symbol .greaterOrEqual => some .greaterOrEqual
  | .symbol .lessOrGreater => some .notEqual
  | .symbol .less => some .less
  | .symbol .lessOrEqual => some .lessOrEqual
  | .symbol .notEqual => some .notEqual
  | _ => none

/-- Whether a token starts a test after an operand. -/
def startsTest : Token → Bool
  | .keyword .is => true
  | .keyword .«in» => true
  | .keyword .between => true
  | .keyword .not => true
  | _ => false

/-- The rest of a name: a period and a second name, or the star of all columns. -/
def qualified (first : String) : Reader Expression := do
  if ← Reader.acceptSymbol .period then
    if ← Reader.acceptSymbol .asterisk then return .field (some first) "*"
    let name ← Reader.name
    return .field (some first) name
  else return .field none first

/-- Numbers the next placeholder. -/
def placeholder : Reader Expression := fun cursor =>
  .ok (.parameter cursor.parameters, { cursor with parameters := cursor.parameters + 1 })

mutual
/-- Reads an expression whose operators bind at least as tightly as the floor. -/
def expression : (fuel floor : Nat) → Reader Expression
  | 0, _ => throw .endOfInput
  | fuel + 1, floor => do
    let first ← signed fuel floor
    let tested ← tests fuel floor first
    operations fuel floor tested

/-- Reads an operand with the operators before it. -/
def signed : (fuel floor : Nat) → Reader Expression
  | 0, _ => throw .endOfInput
  | fuel + 1, floor => do
    match ← Reader.glance with
    | some (.keyword .not) =>
      if floor ≤ 3 then
        let _ ← Reader.next
        let operand ← expression fuel 3
        return .not operand
      else atom fuel
    | some (.symbol .minus) =>
      if floor ≤ signPrecedence then
        let _ ← Reader.next
        match ← Reader.glance with
        | some (.number text) =>
          let _ ← Reader.next
          let literal ← numberLiteral true text
          return .literal literal
        | _ =>
          let operand ← expression fuel signPrecedence
          negated operand
      else atom fuel
    | some (.symbol .plus) =>
      if floor ≤ signPrecedence then
        let _ ← Reader.next
        let operand ← expression fuel signPrecedence
        affirmed operand
      else atom fuel
    | _ => atom fuel

/-- Reads an operand that starts with no operator. -/
def atom : (fuel : Nat) → Reader Expression
  | 0 => throw .endOfInput
  | fuel + 1 => do
    match ← Reader.next with
    | .identifier name =>
      if ← Reader.acceptSymbol .openParen then
        let function := Text.upperCase name
        let found ← arguments fuel function true
        return .call function found
      else qualified name
    | .number text =>
      let literal ← numberLiteral false text
      return .literal literal
    | .symbol .openParen =>
      let inner ← expression fuel 0
      Reader.expectSymbol .closeParen
      return inner
    | .symbol .question => placeholder
    | .string content => return .literal (.string content)
    | .keyword .false => return .literal (.boolean false)
    | .keyword .null => return .literal .null
    | .keyword .true => return .literal (.boolean true)
    | token => throw (.expectedAtom token)

/-- Reads the arguments of a call up to the closing parenthesis. -/
def arguments : (fuel : Nat) → (function : String) → (first : Bool) → Reader (List Expression)
  | 0, _, _ => throw .endOfInput
  | fuel + 1, function, first => do
    if ← Reader.acceptSymbol .closeParen then return []
    if first = false then Reader.expectSymbol .comma
    let starred ← if function = "COUNT" then Reader.acceptSymbol .asterisk else pure false
    let argument ← if starred then pure .star else expression fuel 0
    let rest ← arguments fuel function false
    return argument :: rest

def tests : (fuel floor : Nat) → Expression → Reader Expression
  | 0, _, operand => return operand
  | fuel + 1, floor, operand => do
    if floor ≤ testPrecedence then
      match ← Reader.takeIf startsTest with
      | some token =>
        let tested ← test fuel operand token
        tests fuel floor tested
      | none => return operand
    else return operand

/-- Reads the rest of a test whose first token has been taken. -/
def test : (fuel : Nat) → Expression → Token → Reader Expression
  | 0, _, _ => throw .endOfInput
  | fuel + 1, operand, token => do
    match token with
    | .keyword .is =>
      let denied ← Reader.acceptWord .not
      Reader.expectWord .null
      return if denied then .not (.isNull operand) else .isNull operand
    | .keyword .not =>
      match ← Reader.next with
      | .keyword .«in» =>
        let found ← membership fuel operand
        return .not found
      | .keyword .between =>
        let found ← range fuel operand
        return .not found
      | .keyword .like =>
        let pattern ← expression fuel comparisonPrecedence
        return .not (.binary .like operand pattern)
      | found => throw (.unexpectedAfterNot found)
    | .keyword .«in» => membership fuel operand
    | _ => range fuel operand

/-- Reads the items of an IN test. -/
def membership : (fuel : Nat) → Expression → Reader Expression
  | 0, _ => throw .endOfInput
  | fuel + 1, operand => do
    Reader.expectSymbol .openParen
    let items ← Reader.separated (expression fuel 0)
    Reader.expectSymbol .closeParen
    return .isIn operand items

/-- Reads the bounds of a BETWEEN test. -/
def range : (fuel : Nat) → Expression → Reader Expression
  | 0, _ => throw .endOfInput
  | fuel + 1, operand => do
    let low ← expression fuel comparisonPrecedence
    Reader.expectWord .and
    let high ← expression fuel comparisonPrecedence
    return .between operand low high

/-- Reads the operators between expressions, and their right operands. -/
def operations : (fuel floor : Nat) → Expression → Reader Expression
  | 0, _, left => return left
  | fuel + 1, floor, left => do
    match (← Reader.glance).bind operator? with
    | some operator =>
      if floor ≤ operator.precedence then
        let _ ← Reader.next
        let right ← expression fuel (operator.precedence + 1)
        operations fuel floor (.binary operator left right)
      else return left
    | none => return left
end

/-- Reads an expression. Every few levels of the recursion take a token, so a multiple
of the number of tokens bounds its depth. -/
def expressionAbove (floor : Nat) : Reader Expression := fun cursor =>
  expression (6 * cursor.tokens.length + 6) floor cursor

def anyExpression : Reader Expression :=
  expressionAbove 0

def parseExpression (text : String) : Except Error Expression :=
  (do
    let found ← anyExpression
    Reader.ended
    return found : Reader Expression).run' (Cursor.ofText text)

end Coffer.Language
