import Coffer.Access.PasswordHash
import Coffer.Error
import Coffer.Store.Directory

namespace Coffer

/-! # Access control

Permissions belong to roles. A caller presents a role, or is the program itself, which
may do everything, or nobody, who may do nothing.
-/

inductive Caller where
  | local
  | anonymous
  | role (name : String)
  deriving DecidableEq, Repr

structure User where
  /-- The password hash as text. Users that a grant brought about have none, and cannot
  log in. -/
  passwordHash : Option String
  role : String
  deriving DecidableEq, Repr

/-- A user as shown to callers. -/
structure Identity where
  username : String
  role : String
  deriving DecidableEq, Repr

structure Access where
  /-- The permissions of each role, in listing order. -/
  roles : Directory (List Permission)
  users : Directory User
  deriving DecidableEq

namespace Access

/-- The role that holds every permission, whatever is listed for it. -/
def administrator : String := "admin"

/-- The role of users that a grant brings about. -/
def grantedRole : String := "readonly"

/-- The fixed roles, and no users. -/
def standard : Access :=
  { roles := .ofList [
      (administrator, Permission.every),
      ("operator", [.select, .insert, .update, .delete]),
      (grantedRole, [.select]),
      ("viewer", [.select])]
    users := .empty }

/-- Whether a caller holds a permission. Unknown roles hold none. -/
def allows (access : Access) (caller : Caller) (permission : Permission) : Bool :=
  match caller with
  | .local => true
  | .anonymous => false
  | .role name =>
    name == administrator ||
      (access.roles.get? name).any fun permissions => permissions.contains permission

/-- Passes callers that hold a permission. -/
def authorize (access : Access) (caller : Caller) (permission : Permission) :
    Except Error Unit :=
  if access.allows caller permission then .ok () else .error (.denied permission)

/-- Adds a user under a known role, instead of any user of that name. The salt goes into
the password hash. -/
def addUser (access : Access) (salt : Bytes) (username password role : String) :
    Except Error Access := do
  if username.isEmpty then throw .emptyUsername
  if !access.roles.contains role then throw (.unknownRole role)
  let passwordHash := some (PasswordHash.create password salt).toText
  return { access with users := access.users.insert username { passwordHash, role } }

/-- Removes a user, and tells whether there was one. -/
def removeUser (access : Access) (username : String) : Access × Bool :=
  ({ access with users := access.users.erase username }, access.users.contains username)

/-- The user of a name, if the password is theirs. -/
def authenticate (access : Access) (username password : String) : Option Identity := do
  let user ← access.users.get? username
  let stored ← user.passwordHash.bind PasswordHash.ofText?
  if stored.accepts password then some ⟨username, user.role⟩ else none

def identities (access : Access) : List Identity :=
  access.users.entries.map fun entry => ⟨entry.1, entry.2.role⟩

/-- Makes sure that a grantee exists. Roles are fixed, so a grant has no further effect. -/
def grant (access : Access) (grantee : String) : Except Error Access :=
  if grantee.isEmpty then .error .emptyGrantee
  else if access.users.contains grantee then .ok access
  else
    .ok { access with
      users := access.users.insert grantee { passwordHash := none, role := grantedRole } }

end Access

end Coffer
