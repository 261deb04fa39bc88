import Tenancy.Organization

/-!
# Tenancy - Memberships

A membership ties a user to an organization and lists the roles assigned there.
It keeps a copy of the organization's tenant.  At most one membership of a user
in a tenant is primary.

Main definitions:

- `Membership`, `RoleAssignment`: the records.
- `Membership.create`, `RoleAssignment.create`: new records for an organization.
- `Membership.Change`: a delta to one membership, with `Membership.applyChange`.
- `Membership.missingRoles`, `Membership.surplusRoles`: what separates a member from a wanted set of
  roles.
- `MemberFilter`, `MemberQuery`, `MemberPage`: asking for members page by page.
-/

namespace Tenancy

/-- A role assigned to a member; times are seconds since 1970. -/
structure RoleAssignment where
  organizationId : String
  userId : String
  roleId : String
  tenantId : Option String
  createdAt : Nat
deriving DecidableEq, Inhabited

/-- An assignment made in an organization. -/
def RoleAssignment.create (org : Organization) (userId roleId : String) (now : Nat) :
    RoleAssignment :=
  { organizationId := org.id, userId := userId, roleId := roleId, tenantId := org.tenantId,
    createdAt := now }

/-- A user's membership in an organization, with the assigned roles in order of assignment. -/
structure Membership where
  organizationId : String
  userId : String
  tenantId : Option String
  isPrimary : Bool
  roles : List RoleAssignment
  createdAt : Nat
  updatedAt : Nat
deriving DecidableEq, Inhabited

namespace Membership

/-- What tells memberships apart: the organization and the user. -/
def key (member : Membership) : String × String :=
  (member.organizationId, member.userId)

/-- The ids of the assigned roles. -/
def roleIds (member : Membership) : List String :=
  member.roles.map (·.roleId)

/-- Whether a role is assigned. -/
def hasRole (member : Membership) (roleId : String) : Bool :=
  member.roles.any (·.roleId == roleId)

/-- A new membership in an organization. -/
def create (org : Organization) (userId : String) (isPrimary : Bool) (roleIds : List String)
    (now : Nat) : Membership :=
  { organizationId := org.id, userId := userId, tenantId := org.tenantId, isPrimary := isPrimary
    roles := roleIds.map fun roleId => RoleAssignment.create org userId roleId now
    createdAt := now, updatedAt := now }

/-! ## Requests -/

/-- A request to add a member. -/
structure Draft where
  organizationId : String
  userId : String
  tenantId : Option String
  isPrimary : Bool
  roleIds : List String
deriving DecidableEq, Inhabited

/-- A request to change a membership; an absent part stays as it is. -/
structure Patch where
  isPrimary : Option Bool
  roleIds : Option (List String)
deriving DecidableEq, Inhabited

/-! ## Deltas -/

/-- A delta to one membership, written as one step. -/
structure Change where
  organizationId : String
  userId : String
  /-- The new primary flag, if it changes. -/
  isPrimary : Option Bool
  /-- Whether the user's other memberships in the tenant stop being primary. -/
  clearsOthers : Bool
  added : List RoleAssignment
  removedRoleIds : List String
  updatedAt : Nat
deriving DecidableEq, Inhabited

/-- Whether a delta changes nothing. -/
def Change.isEmpty (change : Change) : Bool :=
  change.isPrimary.isNone && !change.clearsOthers && change.added.isEmpty &&
    change.removedRoleIds.isEmpty

/-- The assignments of a wanted list of roles that are missing. -/
def missingRoles (member : Membership) (org : Organization) (wanted : List String) (now : Nat) :
    List RoleAssignment :=
  (wanted.filter (!member.hasRole ·)).map fun roleId =>
    RoleAssignment.create org member.userId roleId now

/-- The assigned roles that a wanted list leaves out. -/
def surplusRoles (member : Membership) (wanted : List String) : List String :=
  member.roleIds.filter (!wanted.contains ·)

/-- Add an assignment unless its role is assigned already. -/
def assign (roles : List RoleAssignment) (added : RoleAssignment) : List RoleAssignment :=
  if roles.any (·.roleId == added.roleId) then roles else roles ++ [added]

/-- The assignments after removals and additions. -/
def reassign (roles added : List RoleAssignment) (removedRoleIds : List String) :
    List RoleAssignment :=
  added.foldl assign (roles.filter (!removedRoleIds.contains ·.roleId))

/-- The membership after a delta. -/
def applyChange (member : Membership) (change : Change) : Membership :=
  { member with
    isPrimary := change.isPrimary.getD member.isPrimary
    roles := reassign member.roles change.added change.removedRoleIds
    updatedAt := change.updatedAt }

/-- Withdraw the primary flag at `now` if the user holds it elsewhere in the tenant. -/
def withdrawPrimary (keptOrganizationId userId : String) (tenantId : Option String) (now : Nat)
    (member : Membership) : Membership :=
  if member.userId = userId ∧ member.organizationId ≠ keptOrganizationId ∧
      member.tenantId = tenantId ∧ member.isPrimary then
    { member with isPrimary := false, updatedAt := now }
  else member

end Membership

/-! ## Asking for members -/

/-- Which members of an organization to return; an absent part does not restrict. -/
structure MemberFilter where
  organizationId : String
  isPrimary : Option Bool
  roleId : Option String
  userIds : Option (List String)
deriving DecidableEq, Inhabited

/-- Whether a membership passes a filter. -/
def MemberFilter.accepts (filter : MemberFilter) (member : Membership) : Bool :=
  member.organizationId == filter.organizationId &&
    filter.isPrimary.all (member.isPrimary == ·) &&
    filter.roleId.all member.hasRole &&
    filter.userIds.all (·.contains member.userId)

/-- A request for one page of an organization's members. -/
structure MemberQuery where
  organizationId : String
  isPrimary : Option Bool
  roleId : Option String
  search : Option String
  page : Option Nat
  pageSize : Option Nat
deriving DecidableEq, Inhabited

/-- One page of members; `total` and `totalPages` count all that pass the filter. -/
structure MemberPage where
  items : List Membership
  total : Nat
  page : Nat
  pageSize : Nat
  totalPages : Nat
deriving DecidableEq, Inhabited

/-- The page of an answer without members. -/
def MemberPage.empty (page pageSize : Nat) : MemberPage :=
  { items := [], total := 0, page := page, pageSize := pageSize, totalPages := 0 }

end Tenancy
