import Coffer.Language.Lexing
import Coffer.Language.StatementType
import Coffer.Number.RealText

namespace Coffer.Language

/-! # Rendering

Statements are rendered as marks: tokens in their written form, and single spaces.
Names are quoted where a bare word would not read back as the name, and an operand is
put in parentheses where it binds no tighter than its place asks for. Function names
and trigger bodies are written as they are.
-/

/-- A piece of rendered text. -/
inductive Mark where
  | token (token : Token)
  | bare (text : String)
  | space
  deriving DecidableEq, Repr

/-- Whether a name is written without quotes: a word of plain form, and no keyword. -/
def isBareName (name : String) : Bool :=
  match name.toList with
  | [] => false
  | first :: rest =>
    (Text.isLatinLetter first || first == '_') && rest.all Text.isWordCharacter &&
      (Keyword.ofWord? name).isNone

/-- Content between quotes, with every quote in it doubled. -/
def quotedText (quote : Char) (content : String) : List Char :=
  quote :: (content.toList.flatMap fun c => if c = quote then [c, c] else [c]) ++ [quote]

def nameText (name : String) : String :=
  if isBareName name then name else String.ofList (quotedText '\x22' name)

def Token.written : Token → String
  | .number text => text
  | .string content => String.ofList (quotedText '\x27' content)
  | .identifier name => nameText name
  | .keyword word => word.spelling
  | .symbol mark => mark.spelling

def Mark.written : Mark → String
  | .token piece => piece.written
  | .bare text => text
  | .space => " "

def writtenMarks (marks : List Mark) : String :=
  String.join (marks.map Mark.written)

namespace Mark

def word (keyword : Keyword) : Mark := .token (.keyword keyword)
def name (name : String) : Mark := .token (.identifier name)
def symbol (mark : Symbol) : Mark := .token (.symbol mark)

/-- Keywords set off by a space before each. -/
def clause (keywords : List Keyword) : List Mark :=
  keywords.flatMap fun keyword => [.space, word keyword]

/-- Items set off by a comma and a space. -/
def separated : List (List Mark) → List Mark
  | [] => []
  | first :: rest => first ++ rest.flatMap fun item => symbol .comma :: .space :: item

def parenthesized (marks : List Mark) : List Mark :=
  symbol .openParen :: (marks ++ [symbol .closeParen])

def names (names : List String) : List Mark :=
  parenthesized (separated (names.map fun name => [Mark.name name]))

end Mark

/-- Digits as a number with an optional sign before it. -/
def signedNumber (negative : Bool) (digits : String) : List Mark :=
  if negative then [.symbol .minus, .token (.number digits)] else [.token (.number digits)]

/-- A real as a literal. A whole one is written out with one fraction digit, so that
it reads back as a real. -/
def realMarks (x : Binary64) : List Mark :=
  if x.isWhole then
    signedNumber x.negative
      (String.ofList (digitsOf x.truncated.natAbs ++ ['.', '0']))
  else if x.isFinite then
    signedNumber x.negative (RealLayout.sql.text (.ofMagnitude false x.magnitude))
  else [.bare (RealLayout.sql.text x)]

def Literal.marks : Literal → List Mark
  | .null => [.word .null]
  | .boolean true => [.word .true]
  | .boolean false => [.word .false]
  | .integer number =>
    signedNumber (decide (number.toInt < 0)) (String.ofList (digitsOf number.toInt.natAbs))
  | .real number => realMarks number
  | .string content => [.token (.string content)]

namespace Operator

/-- How tightly the operator binds. -/
def precedence : Operator → Nat
  | .or => 1
  | .and => 2
  | .equal | .notEqual | .like => 4
  | .greater | .greaterOrEqual | .less | .lessOrEqual => 5

def token : Operator → Token
  | .or => .keyword .or
  | .and => .keyword .and
  | .equal => .symbol .equal
  | .notEqual => .symbol .notEqual
  | .greater => .symbol .greater
  | .greaterOrEqual => .symbol .greaterOrEqual
  | .less => .symbol .less
  | .lessOrEqual => .symbol .lessOrEqual
  | .like => .keyword .like

end Operator

namespace Expression

/-- How tightly an expression holds together, as an operand of another one. -/
def precedence : Expression → Nat
  | .binary operator .. => operator.precedence
  | .not _ => 3
  | .isNull _ | .isIn .. | .between .. => 5
  | _ => 10

/-- The marks of an operand, in parentheses unless it binds tighter than its place. -/
def guarded (operand : Expression) (marks : List Mark) (place : Nat) : List Mark :=
  if operand.precedence ≤ place then Mark.parenthesized marks else marks

mutual
def marks : Expression → List Mark
  | .field none name => [.name name]
  | .field (some relation) name => [.name relation, .symbol .period, .name name]
  | .literal value => value.marks
  | .parameter _ => [.symbol .question]
  | .call function arguments =>
    .bare function :: Mark.parenthesized (Mark.separated (marksOfList arguments))
  | .star => [.symbol .asterisk]
  | .binary operator left right =>
    left.guarded left.marks (operator.precedence - 1) ++
      (.space :: .token operator.token :: .space ::
        right.guarded right.marks operator.precedence)
  | .not operand => .word .not :: .space :: operand.guarded operand.marks 2
  | .isNull operand => operand.guarded operand.marks 5 ++ Mark.clause [.is, .null]
  | .isIn operand items =>
    operand.guarded operand.marks 5 ++
      (Mark.clause [.«in»] ++
        (.space :: Mark.parenthesized (Mark.separated (marksOfList items))))
  | .between operand low high =>
    operand.guarded operand.marks 5 ++
      (Mark.clause [.between] ++ (.space :: (low.guarded low.marks 5 ++
        (Mark.clause [.and] ++ (.space :: high.guarded high.marks 5)))))

def marksOfList : List Expression → List (List Mark)
  | [] => []
  | first :: rest => first.marks :: marksOfList rest
end

def render (expression : Expression) : String :=
  writtenMarks expression.marks

end Expression

def optionalClause (keywords : List Keyword) : Option Expression → List Mark
  | none => []
  | some expression => Mark.clause keywords ++ (.space :: expression.marks)

def countClause (keyword : Keyword) : Option Nat → List Mark
  | none => []
  | some count =>
    Mark.clause [keyword] ++ [.space, .token (.number (String.ofList (digitsOf count)))]

def TableReference.marks (reference : TableReference) : List Mark :=
  .name reference.name ::
    match reference.asName with
    | none => []
    | some asName => Mark.clause [.as] ++ [.space, .name asName]

def SelectItem.marks : SelectItem → List Mark
  | .every => [.symbol .asterisk]
  | .everyOf relation => [.name relation, .symbol .period, .symbol .asterisk]
  | .expression value none => value.marks
  | .expression value (some asName) => value.marks ++ (Mark.clause [.as] ++ [.space, .name asName])

def JoinKind.keywords : JoinKind → List Keyword
  | .inner => [.inner, .join]
  | .left => [.left, .join]
  | .right => [.right, .join]
  | .cross => [.cross, .join]

def Join.marks (join : Join) : List Mark :=
  Mark.clause join.kind.keywords ++
    (.space :: (join.table.marks ++ optionalClause [.on] join.condition))

def OrderTerm.marks (term : OrderTerm) : List Mark :=
  term.key.marks ++ if term.descending then Mark.clause [.desc] else []

def Select.marks (select : Select) : List Mark :=
  .word .select ::
    ((if select.distinct then Mark.clause [.distinct] else []) ++
      (.space :: Mark.separated (select.items.map SelectItem.marks)) ++
      (match select.source with
        | none => []
        | some source => Mark.clause [.«from»] ++ (.space :: source.marks)) ++
      select.joins.flatMap Join.marks ++
      optionalClause [.«where»] select.condition ++
      (if select.grouping.isEmpty then []
        else Mark.clause [.group, .«by»] ++
          (.space :: Mark.separated (select.grouping.map Expression.marks))) ++
      optionalClause [.having] select.having ++
      (if select.ordering.isEmpty then []
        else Mark.clause [.order, .«by»] ++
          (.space :: Mark.separated (select.ordering.map OrderTerm.marks))) ++
      countClause .limit select.limit ++
      countClause .offset select.offset)

def ColumnDefinition.marks (column : ColumnDefinition) : List Mark :=
  [.name column.name, .space, .name column.type.name] ++
    (if column.primaryKey then Mark.clause [.primary, .key] else []) ++
    (if column.autoincrement then Mark.clause [.autoincrement] else []) ++
    (match column.nullable with
      | none => []
      | some false => Mark.clause [.not, .null]
      | some true => Mark.clause [.null]) ++
    (if column.unique then Mark.clause [.unique] else []) ++
    optionalClause [.default] column.default ++
    (match column.references with
      | none => []
      | some reference =>
        Mark.clause [.references] ++ [.space, .name reference.table] ++
          (match reference.column with
            | none => []
            | some name => Mark.parenthesized [.name name]))

/-- The word of a conflict resolution; one of them is a keyword. -/
def Resolution.token (resolution : Resolution) : Token :=
  wordToken resolution.name

def resolutionMarks : Option Resolution → List Mark
  | none => []
  | some resolution => Mark.clause [.or] ++ [.space, .token resolution.token]

def InsertSource.marks : InsertSource → List Mark
  | .values rows =>
    Mark.clause [.values] ++ (.space :: Mark.separated (rows.map fun row =>
      Mark.parenthesized (Mark.separated (row.map Expression.marks))))
  | .query select => .space :: select.marks

def Insert.marks (insert : Insert) : List Mark :=
  .word .insert :: (resolutionMarks insert.resolution ++
    Mark.clause [.into] ++ [.space, .name insert.table] ++
    (match insert.columns with
      | none => []
      | some columns => .space :: Mark.names columns) ++
    insert.source.marks)

def Update.marks (update : Update) : List Mark :=
  .word .update :: (resolutionMarks update.resolution ++
    [.space, .name update.table] ++ Mark.clause [.set] ++
    (.space :: Mark.separated (update.assignments.map fun assignment =>
      [.name assignment.1, .space, .symbol .equal, .space] ++ assignment.2.marks)) ++
    optionalClause [.«where»] update.condition)

def Delete.marks (delete : Delete) : List Mark :=
  .word .delete :: (Mark.clause [.«from»] ++ [.space, .name delete.table] ++
    optionalClause [.«where»] delete.condition)

def ObjectKind.keyword : ObjectKind → Keyword
  | .table => .table
  | .index => .index
  | .view => .view
  | .trigger => .trigger

def Definition.marks : Definition → List Mark
  | .table columns =>
    .space :: Mark.parenthesized (Mark.separated (columns.map ColumnDefinition.marks))
  | .index owner columns _ =>
    Mark.clause [.on] ++ [.space, .name owner, .space] ++ Mark.names columns
  | .view query => Mark.clause [.as] ++ (.space :: query.marks)
  | .trigger body => [.space, .bare body]

def Definition.isUnique : Definition → Bool
  | .index _ _ unique => unique
  | _ => false

def Create.marks (create : Create) : List Mark :=
  .word .create :: ((if create.temporary then Mark.clause [.temporary] else []) ++
    (if create.definition.isUnique then Mark.clause [.unique] else []) ++
    Mark.clause [create.definition.kind.keyword] ++
    (if create.ifNotExists then Mark.clause [.«if», .not, .exists] else []) ++
    [.space, .name create.name] ++ create.definition.marks)

def Drop.marks (drop : Drop) : List Mark :=
  .word .drop :: (Mark.clause [drop.kind.keyword] ++
    (if drop.ifExists then Mark.clause [.«if», .exists] else []) ++
    [.space, .name drop.name])

def AlterAction.marks : AlterAction → List Mark
  | .addColumn column => Mark.clause [.add, .column] ++ (.space :: column.marks)
  | .renameTable name => Mark.clause [.rename, .to] ++ [.space, .name name]
  | .renameColumn source target =>
    Mark.clause [.rename, .column] ++ [.space, .name source] ++
      Mark.clause [.to] ++ [.space, .name target]

def Alter.marks (alter : Alter) : List Mark :=
  .word .alter :: (Mark.clause [.table] ++ [.space, .name alter.table] ++ alter.action.marks)

def Privileges.marks : Privileges → List Mark
  | .every => [.word .all]
  | .listed permissions =>
    Mark.separated (permissions.map fun permission => [.word (privilegeKeyword permission)])

/-- A GRANT or REVOKE, whose preposition before the grantee differs. -/
def Privilege.marks (verb preposition : Keyword) (privilege : Privilege) : List Mark :=
  .word verb :: .space :: (privilege.privileges.marks ++
    (match privilege.table with
      | none => []
      | some table => Mark.clause [.on] ++ [.space, .name table]) ++
    Mark.clause [preposition] ++ [.space, .name privilege.grantee])

def Statement.marks : Statement → List Mark
  | .begin => [.word .begin]
  | .commit => [.word .commit]
  | .rollback => [.word .rollback]
  | .create body => body.marks
  | .drop body => body.marks
  | .alter body => body.marks
  | .select body => body.marks
  | .insert body => body.marks
  | .update body => body.marks
  | .delete body => body.marks
  | .grant privilege => privilege.marks .grant .to
  | .revoke privilege => privilege.marks .revoke .«from»

def Select.render (select : Select) : String :=
  writtenMarks select.marks

def Statement.render (statement : Statement) : String :=
  writtenMarks statement.marks

end Coffer.Language
