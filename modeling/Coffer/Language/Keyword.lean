import Coffer.Text.UpperCase

namespace Coffer.Language

/-! # Keywords

The reserved words of the statement language. Names of column types, of conflict
resolutions and of functions are ordinary identifiers, so they stay usable as names.
-/

inductive Keyword where
  | add | all | alter | and | as | asc | autoincrement | begin | between | «by» | column
  | commit | create | cross | default | delete | desc | distinct | drop | exists | false
  | «from» | grant | group | having | «if» | «in» | index | inner | insert | into | is
  | join | key | left | like | limit | not | null | offset | on | or | order | outer
  | primary | privileges | references | rename | revoke | right | rollback | select | set
  | table | temp | temporary | to | transaction | trigger | true | unique | update | values
  | view | «where»
  deriving DecidableEq, Repr

namespace Keyword

def every : List Keyword := [
  .add, .all, .alter, .and, .as, .asc, .autoincrement, .begin, .between, .«by», .column,
  .commit, .create, .cross, .default, .delete, .desc, .distinct, .drop, .exists, .false,
  .«from», .grant, .group, .having, .«if», .«in», .index, .inner, .insert, .into, .is,
  .join, .key, .left, .like, .limit, .not, .null, .offset, .on, .or, .order, .outer,
  .primary, .privileges, .references, .rename, .revoke, .right, .rollback, .select, .set,
  .table, .temp, .temporary, .to, .transaction, .trigger, .true, .unique, .update, .values,
  .view, .«where»
]

/-- The keyword as it is written, in upper case. -/
def spelling : Keyword → String
  | .add => "ADD"
  | .all => "ALL"
  | .alter => "ALTER"
  | .and => "AND"
  | .as => "AS"
  | .asc => "ASC"
  | .autoincrement => "AUTOINCREMENT"
  | .begin => "BEGIN"
  | .between => "BETWEEN"
  | .«by» => "BY"
  | .column => "COLUMN"
  | .commit => "COMMIT"
  | .create => "CREATE"
  | .cross => "CROSS"
  | .default => "DEFAULT"
  | .delete => "DELETE"
  | .desc => "DESC"
  | .distinct => "DISTINCT"
  | .drop => "DROP"
  | .exists => "EXISTS"
  | .false => "FALSE"
  | .«from» => "FROM"
  | .grant => "GRANT"
  | .group => "GROUP"
  | .having => "HAVING"
  | .«if» => "IF"
  | .«in» => "IN"
  | .index => "INDEX"
  | .inner => "INNER"
  | .insert => "INSERT"
  | .into => "INTO"
  | .is => "IS"
  | .join => "JOIN"
  | .key => "KEY"
  | .left => "LEFT"
  | .like => "LIKE"
  | .limit => "LIMIT"
  | .not => "NOT"
  | .null => "NULL"
  | .offset => "OFFSET"
  | .on => "ON"
  | .or => "OR"
  | .order => "ORDER"
  | .outer => "OUTER"
  | .primary => "PRIMARY"
  | .privileges => "PRIVILEGES"
  | .references => "REFERENCES"
  | .rename => "RENAME"
  | .revoke => "REVOKE"
  | .right => "RIGHT"
  | .rollback => "ROLLBACK"
  | .select => "SELECT"
  | .set => "SET"
  | .table => "TABLE"
  | .temp => "TEMP"
  | .temporary => "TEMPORARY"
  | .to => "TO"
  | .transaction => "TRANSACTION"
  | .trigger => "TRIGGER"
  | .true => "TRUE"
  | .unique => "UNIQUE"
  | .update => "UPDATE"
  | .values => "VALUES"
  | .view => "VIEW"
  | .«where» => "WHERE"

def ofWord? (word : String) : Option Keyword :=
  let spelled := Text.upperCase word
  every.find? fun keyword => keyword.spelling == spelled

end Keyword

end Coffer.Language
