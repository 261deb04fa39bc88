import Tenancy.Organization

/-!
# Tenancy - Roles and grants

A role without an organization is a template that every organization of its
tenant may assign.  A grant gives a permission to the holders of a role, at one
scope: everywhere the role is used, or in one organization only.

Main definitions:

- `Role`, `Role.Draft`, `Role.Patch`: the record and the requests about it.
- `Role.fits`: whether an organization may assign a role.
- `Grant`: one permission of one role at one scope.
- `RolePermissions`: what a role grants, in all and at the scope itself.
-/

namespace Tenancy

/-- A named set of permissions; times are seconds since 1970. -/
structure Role where
  id : String
  organizationId : Option String
  tenantId : Option String
  name : String
  description : Option String
  isSystem : Bool
  createdAt : Nat
  updatedAt : Nat
deriving DecidableEq, Inhabited

namespace Role

/-- Whether the role belongs to no organization. -/
def isTemplate (role : Role) : Bool :=
  role.organizationId.isNone

/-- Whether the role is defined outside a scope, so that its own grants are inherited there. -/
def isDefinedOutside (role : Role) (scope : Option String) : Bool :=
  role.organizationId != scope

/-- Whether an organization may assign the role: neither its owner nor its tenant is another. -/
def fits (role : Role) (org : Organization) : Bool :=
  role.organizationId.all (· == org.id) && role.tenantId.all (some · == org.tenantId)

/-- A request to create a role. -/
structure Draft where
  name : String
  description : Option String
  isSystem : Bool
  organizationId : Option String
  tenantId : Option String
deriving DecidableEq, Inhabited

/-- A request to rename or redescribe a role; a blank description removes it. -/
structure Patch where
  name : Option String
  description : Option String
deriving DecidableEq, Inhabited

end Role

/-- One permission of one role, everywhere or in one organization. -/
structure Grant where
  id : String
  roleId : String
  permissionId : String
  organizationId : Option String
  tenantId : Option String
deriving DecidableEq, Inhabited

/-- Whether two grants give the same permission of the same role at the same scope. -/
def Grant.sameGrant (a b : Grant) : Bool :=
  a.roleId == b.roleId && a.permissionId == b.permissionId &&
    a.organizationId == b.organizationId && a.tenantId == b.tenantId

/-- The names a role grants: all of them, and those given exactly at the scope. -/
structure RolePermissions where
  effective : List String
  explicit : List String
deriving DecidableEq, Inhabited

end Tenancy
