import Tenancy.Metadata
import Tenancy.Text.Basic

/-!
# Tenancy - Organizations

An organization lives in one tenant, or in the global scope when it has none.
Its slug and its display name are unique within that scope; its slug, tenant
and creation time never change.

Main definitions:

- `Organization`, `Organization.Status`: the record and its life cycle.
- `Organization.Status.name`, `Organization.Status.jsonName`: the names of a status in tables
  and in JSON.
- `Organization.Draft`, `Organization.Patch`: requests to create and to change one.
- `Organization.amend`: the record after a patch, and `Organization.changedFields`.
-/

namespace Tenancy

namespace Organization

/-- Whether an organization is in use or archived. -/
inductive Status
  | active
  | archived
deriving DecidableEq, Repr, Inhabited

/-- The name under which a status is stored. -/
def Status.name : Status → String
  | .active => "active"
  | .archived => "archived"

/-- The name of a status in camel case. -/
def Status.identifier : Status → String
  | .active => "Active"
  | .archived => "Archived"

/-- The name of a status in JSON. -/
def Status.jsonName (status : Status) : String :=
  Text.asciiLowercase status.identifier

/-- The status with a name in JSON. -/
def Status.named? (name : String) : Option Status :=
  [.active, .archived].find? (·.jsonName == name)

/-- Read a status, whatever the case of its letters. -/
def Status.parse (raw : String) : Option Status :=
  match Text.lowercase raw with
  | "active" => some .active
  | "archived" => some .archived
  | _ => none

/-- The wording for a text that is no status. -/
def Status.parseMessage (raw : String) : String :=
  "invalid organization status: '" ++ raw ++ "' (expected: active or archived)"

end Organization

/-- An organization; times are seconds since 1970. -/
structure Organization where
  id : String
  tenantId : Option String
  slug : String
  displayName : String
  metadata : Metadata
  status : Organization.Status
  createdAt : Nat
  updatedAt : Nat
  archivedAt : Option Nat
deriving DecidableEq, Inhabited

namespace Organization

/-- Whether the organization is archived. -/
def isArchived (org : Organization) : Bool :=
  org.status == .archived

/-- A request to create an organization. -/
structure Draft where
  slug : String
  displayName : String
  tenantId : Option String
  metadata : Metadata
deriving DecidableEq, Inhabited

/-- A request to change an organization; an absent part stays as it is. -/
structure Patch where
  displayName : Option String
  metadata : Option Metadata
  status : Option Status
deriving DecidableEq, Inhabited

/-- The patch that archives. -/
def Patch.archive : Patch :=
  { displayName := none, metadata := none, status := some .archived }

/-- The archiving time after a move to `status` at `now`; staying put keeps the old one. -/
def archivedAtAfter (org : Organization) (status : Status) (now : Nat) : Option Nat :=
  if status = org.status then org.archivedAt
  else
    match status with
    | .archived => some now
    | .active => none

/-- The record with new contents; its update time is stamped only when something changed. -/
def amend (org : Organization) (displayName : String) (metadata : Metadata) (status : Status)
    (now : Nat) : Organization :=
  { org with
    displayName := displayName
    metadata := metadata
    status := status
    archivedAt := org.archivedAtAfter status now }

/-- The names of the fields in which a later record differs. -/
def changedFields (before after : Organization) : List String :=
  (if after.displayName = before.displayName then [] else ["display_name"]) ++
  (if after.metadata = before.metadata then [] else ["metadata"]) ++
  (if after.status = before.status then [] else ["status"])

end Organization
end Tenancy
