/-!
# Tenancy - Errors

A store fails with a `StoreError`; an operation fails with an `Error`, which
either names the rule that was broken or wraps what the store said.

Main definitions:

- `StoreError`, `StoreError.message`: failures of a store or collaborator.
- `Error`, `Error.message`: failures of an operation.
- `ErrorKind`, `Error.kind`: the coarse classes that callers act upon.
-/

namespace Tenancy

/-- A failure of a store or of another collaborator. -/
inductive StoreError
  | notFound (what : String)
  /-- A uniqueness rule of the store refused the write. -/
  | conflict (what : String)
  /-- The collaborator cannot be reached. -/
  | unavailable (what : String)
  | database (what : String)
  | internal (what : String)
  /-- A failure of unknown class, in its own words. -/
  | foreign (what : String)
deriving DecidableEq, Repr, Inhabited

namespace StoreError

/-- The wording of a store failure. -/
def message : StoreError → String
  | .notFound what => "Not found: " ++ what
  | .conflict what => "Conflict: " ++ what
  | .unavailable what => "Service unavailable: " ++ what
  | .database what => "Database error: " ++ what
  | .internal what => "Internal error: " ++ what
  | .foreign what => what

/-- Whether the failure says that a collaborator is down. -/
def isUnavailable : StoreError → Bool
  | .unavailable _ => true
  | _ => false

end StoreError

/-- Why an operation failed. -/
inductive Error
  | invalid (field problem : String)
  | organizationMissing (organizationId : String)
  | membershipMissing (organizationId userId : String)
  | roleMissing (roleId : String)
  | invitationMissing
  | slugTaken (slug : String)
  | displayNameTaken (name : String)
  | alreadyMember
  | tenantMismatch (expected actual : String)
  | roleOutOfScope (roleId organizationId : String)
  | roleNameTaken (name : String)
  | systemRole (roleId : String)
  | unknownPermission (name : String)
  | alreadyInvited
  | invitationExpired
  | addressMismatch
  | storage (cause : StoreError)
deriving DecidableEq, Repr, Inhabited

/-- The coarse class of a failure. -/
inductive ErrorKind
  | validation
  | notFound
  | conflict
  | expired
  | forbidden
  | storage
deriving DecidableEq, Repr, Inhabited

namespace Error

/-- The wording of a failure. -/
def message : Error → String
  | .invalid field problem => "Invalid " ++ field ++ ": " ++ problem
  | .organizationMissing organizationId => "Organization not found: " ++ organizationId
  | .membershipMissing organizationId userId =>
    "User " ++ userId ++ " is not a member of organization " ++ organizationId
  | .roleMissing roleId => "Role not found: " ++ roleId
  | .invitationMissing => "Invitation not found"
  | .slugTaken slug => "Slug already taken: " ++ slug
  | .displayNameTaken name => "Display name already taken: " ++ name
  | .alreadyMember => "User is already a member of this organization"
  | .tenantMismatch expected actual =>
    "Tenant mismatch: organization belongs to " ++ expected ++ ", request names " ++ actual
  | .roleOutOfScope roleId organizationId =>
    "Role " ++ roleId ++ " is not assignable in organization " ++ organizationId
  | .roleNameTaken name => "Role name already taken in this scope: " ++ name
  | .systemRole roleId => "System role cannot be deleted: " ++ roleId
  | .unknownPermission name => "Unknown permission: " ++ name
  | .alreadyInvited => "User already has a pending invitation to this organization"
  | .invitationExpired => "Invitation has expired"
  | .addressMismatch => "Invitation was issued to a different email address"
  | .storage cause => "Storage error: " ++ cause.message

/-- The class of a failure; a store's conflicts and missing rows keep theirs. -/
def kind : Error → ErrorKind
  | .invalid _ _ | .unknownPermission _ => .validation
  | .organizationMissing _ | .membershipMissing _ _ | .roleMissing _ | .invitationMissing =>
    .notFound
  | .slugTaken _ | .displayNameTaken _ | .alreadyMember | .tenantMismatch _ _
  | .roleOutOfScope _ _ | .roleNameTaken _ | .systemRole _ | .alreadyInvited => .conflict
  | .invitationExpired => .expired
  | .addressMismatch => .forbidden
  | .storage (.conflict _) => .conflict
  | .storage (.notFound _) => .notFound
  | .storage _ => .storage

end Error
end Tenancy
