namespace Coffer

/-! # Permissions -/

/-- A verb of the statement language that a role can hold. -/
inductive Permission where
  | select | insert | update | delete | create | drop | alter | grant | revoke
  deriving DecidableEq, Repr

namespace Permission

/-- Every permission, in the order in which sets of them are listed. -/
def every : List Permission :=
  [.select, .insert, .update, .delete, .create, .drop, .alter, .grant, .revoke]

/-- The verb of the permission, in upper case. -/
def name : Permission → String
  | .select => "SELECT"
  | .insert => "INSERT"
  | .update => "UPDATE"
  | .delete => "DELETE"
  | .create => "CREATE"
  | .drop => "DROP"
  | .alter => "ALTER"
  | .grant => "GRANT"
  | .revoke => "REVOKE"

def ofName? (name : String) : Option Permission :=
  every.find? fun permission => permission.name == name

/-- A set of permissions in listing order, without repetitions. -/
def listed (permissions : List Permission) : List Permission :=
  every.filter permissions.contains

end Permission

end Coffer
