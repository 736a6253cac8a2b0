import Coffer.Access.Permission
import Coffer.Language.Expression
import Coffer.Value.ColumnType

namespace Coffer.Language

/-! # Statements -/

/-- A table as named in a query, with the name it goes by there. -/
structure TableReference where
  name : String
  asName : Option String
  deriving DecidableEq, Repr

inductive JoinKind where
  | inner | left | right | cross
  deriving DecidableEq, Repr

structure Join where
  kind : JoinKind
  table : TableReference
  condition : Option Expression
  deriving Repr

inductive SelectItem where
  | every
  | everyOf (relation : String)
  | expression (value : Expression) (asName : Option String)
  deriving Repr

structure OrderTerm where
  key : Expression
  descending : Bool
  deriving Repr

structure Select where
  distinct : Bool
  items : List SelectItem
  source : Option TableReference
  joins : List Join
  condition : Option Expression
  grouping : List Expression
  having : Option Expression
  ordering : List OrderTerm
  limit : Option Nat
  offset : Option Nat
  deriving Repr

/-- Whether an item applies an aggregate function. -/
def SelectItem.isAggregate : SelectItem → Bool
  | .expression value _ => value.containsAggregate
  | _ => false

/-- Whether the query combines rows: by grouping, or by an aggregate in its list. -/
def Select.isAggregate (select : Select) : Bool :=
  !select.grouping.isEmpty || select.items.any SelectItem.isAggregate

/-- What becomes of a row that clashes with another one. -/
inductive Resolution where
  | abort | fail | ignore | replace | rollback
  deriving DecidableEq, Repr

namespace Resolution

def every : List Resolution :=
  [.abort, .fail, .ignore, .replace, .rollback]

def name : Resolution → String
  | .abort => "ABORT"
  | .fail => "FAIL"
  | .ignore => "IGNORE"
  | .replace => "REPLACE"
  | .rollback => "ROLLBACK"

def ofName? (word : String) : Option Resolution :=
  let spelled := Text.upperCase word
  every.find? fun resolution => resolution.name == spelled

end Resolution

inductive InsertSource where
  | values (rows : List (List Expression))
  | query (select : Select)
  deriving Repr

structure Insert where
  resolution : Option Resolution
  table : String
  columns : Option (List String)
  source : InsertSource
  deriving Repr

structure Update where
  resolution : Option Resolution
  table : String
  assignments : List (String × Expression)
  condition : Option Expression
  deriving Repr

structure Delete where
  table : String
  condition : Option Expression
  deriving Repr

/-- The table, and possibly the column, a column refers to. -/
structure Reference where
  table : String
  column : Option String
  deriving DecidableEq, Repr

structure ColumnDefinition where
  name : String
  type : ColumnType
  primaryKey : Bool
  autoincrement : Bool
  nullable : Option Bool
  default : Option Expression
  unique : Bool
  references : Option Reference
  deriving Repr

/-- A column of a type, with nothing else said about it. -/
def ColumnDefinition.plain (name : String) (type : ColumnType) : ColumnDefinition :=
  { name, type, primaryKey := false, autoincrement := false, nullable := none, default := none
    unique := false, references := none }

inductive ObjectKind where
  | table | index | view | trigger
  deriving DecidableEq, Repr

def ObjectKind.name : ObjectKind → String
  | .table => "TABLE"
  | .index => "INDEX"
  | .view => "VIEW"
  | .trigger => "TRIGGER"

/-- What a CREATE statement defines. The body of a trigger is kept as text. -/
inductive Definition where
  | table (columns : List ColumnDefinition)
  | index (table : String) (columns : List String) (unique : Bool)
  | view (select : Select)
  | trigger (body : String)
  deriving Repr

def Definition.kind : Definition → ObjectKind
  | .table _ => .table
  | .index .. => .index
  | .view _ => .view
  | .trigger _ => .trigger

structure Create where
  name : String
  ifNotExists : Bool
  temporary : Bool
  definition : Definition
  deriving Repr

structure Drop where
  kind : ObjectKind
  name : String
  ifExists : Bool
  deriving DecidableEq, Repr

inductive AlterAction where
  | addColumn (column : ColumnDefinition)
  | renameTable (name : String)
  | renameColumn (source target : String)
  deriving Repr

structure Alter where
  table : String
  action : AlterAction
  deriving Repr

/-- The privileges a GRANT or REVOKE names. -/
inductive Privileges where
  | every
  | listed (permissions : List Permission)
  deriving DecidableEq, Repr

/-- The content of a GRANT or REVOKE. -/
structure Privilege where
  privileges : Privileges
  table : Option String
  grantee : String
  deriving DecidableEq, Repr

inductive Statement where
  | begin
  | commit
  | rollback
  | create (create : Create)
  | drop (drop : Drop)
  | alter (alter : Alter)
  | select (select : Select)
  | insert (insert : Insert)
  | update (update : Update)
  | delete (delete : Delete)
  | grant (privilege : Privilege)
  | revoke (privilege : Privilege)
  deriving Repr

end Coffer.Language
