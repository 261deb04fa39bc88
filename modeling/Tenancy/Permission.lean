import Tenancy.Role

/-!
# Tenancy - Permission names and visible grants

Names are compared by their lowercase form.  Grants carry an optional
organization and an optional tenant; an absent one is visible everywhere.

Main definitions:

- `Permission.normalize`: trimmed names, each once, in order, first spelling kept.
- `Permission.merge`: inherited and own names of a role at a scope.
- `Grant.splitByScope`: the grants of a role seen from a scope.
- `Grant.visibleToMember`: the grants that a member holds through assigned roles.
-/

namespace Tenancy

namespace Permission

/-- The order of names: by lowercase form, then by spelling. -/
def nameLE (a b : String) : Bool :=
  let (x, y) := (Text.lowercase a, Text.lowercase b)
  x < y || (x == y && (a < b || a == b))

/-- Trimmed, non-blank names, each once up to case in its first spelling, in order. -/
def normalize (names : List String) : List String :=
  (Text.keepFirst Text.lowercase [] (Text.trimmedTexts names)).mergeSort nameLE

/-- Join inherited names with those given at the scope itself. -/
def merge (baseline explicit : List String) : RolePermissions :=
  { effective := normalize (baseline ++ explicit), explicit := normalize explicit }

/-- The names that a catalog knows for a list of ids, in the order of the ids. -/
def namesOf (catalog : List (String × String)) (ids : List String) : List String :=
  ids.filterMap fun id => catalog.lookup id

end Permission

namespace Grant

/-- Whether a tenant sees the grant. -/
def visibleToTenant (grant : Grant) (tenantId : Option String) : Bool :=
  grant.tenantId.isNone || grant.tenantId == tenantId

/-- Whether an organization sees the grant. -/
def visibleToOrganization (grant : Grant) (organizationId : String) : Bool :=
  grant.organizationId.all (· == organizationId)

/-- The permissions of a role at a scope: given exactly there, and inherited. -/
structure Split where
  explicit : List String
  baseline : List String
deriving DecidableEq

/--
Split a role's grants as seen from a scope.  Those at the scope are explicit;
those at the role's own scope are inherited when the role is defined elsewhere.
-/
def splitByScope (grants : List Grant) (role : Role) (scope tenantId : Option String) : Split :=
  let seen := grants.filter fun grant =>
    grant.roleId == role.id && grant.visibleToTenant tenantId
  { explicit := (seen.filter (·.organizationId == scope)).map (·.permissionId)
    baseline :=
      (seen.filter fun grant =>
        grant.organizationId != scope && role.isDefinedOutside scope &&
          grant.organizationId == role.organizationId).map (·.permissionId) }

/-- The permissions a member holds in an organization through the given roles. -/
def visibleToMember (grants : List Grant) (roleIds : List String) (organizationId : String)
    (tenantId : Option String) : List String :=
  (grants.filter fun grant =>
    roleIds.contains grant.roleId && grant.visibleToOrganization organizationId &&
      grant.visibleToTenant tenantId).map (·.permissionId)

end Grant
end Tenancy
