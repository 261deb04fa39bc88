import Tenancy.Service.Invitations
import Tenancy.Service.Organizations
import Tenancy.Service.Resolution

/-!
# Tenancy - All operations

The public operations as data, so that statements can range over any operation
and over any sequence of them.

Main definitions:

- `Operation`, `Operation.Answer`: the operations and what each returns.
- `Operation.action`: the action that carries an operation out.
- `Deployment`: the limits and the policy that operations obey.
-/

namespace Tenancy

/-- What operations obey. -/
structure Deployment where
  limits : Limits
  invitations : InvitationPolicy
deriving DecidableEq, Inhabited

/-- A public operation with its arguments. -/
inductive Operation
  | createOrganization (draft : Organization.Draft)
  | getOrganization (id : String)
  | getOrganizationBySlug (tenantId : Option String) (slug : String)
  | listOrganizations (tenantId : Option String)
  | updateOrganization (id : String) (patch : Organization.Patch)
  | archiveOrganization (id : String)
  | addMember (draft : Membership.Draft)
  | getMember (organizationId userId : String)
  | listMemberships (userId : String) (tenantId : Option String)
  | pageMembers (query : MemberQuery)
  | updateMember (organizationId userId : String) (patch : Membership.Patch)
  | removeMember (organizationId userId : String)
  | createRole (draft : Role.Draft)
  | getRole (roleId : String)
  | listRoles (tenantId organizationId : Option String)
  | listAssignableRoles (organizationId : String)
  | updateRole (roleId : String) (patch : Role.Patch)
  | deleteRole (roleId : String)
  | getRolePermissions (roleId : String) (scope : Option String)
  | setRolePermissions (roleId : String) (scope : Option String) (names : List String)
  | createInvitation (draft : Invitation.Draft)
  | acceptInvitation (code : String) (user : User)
  | revokeInvitation (organizationId code : String)
  | findInvitation (code : String)
  | listInvitations (organizationId : String)
  | purgeInvitations
  | resolvePermissions (userId : String) (tenantId organizationId : Option String)
  | resolveInOrganization (organizationId userId : String)
  | contributeClaims (userId : String) (tenantId : Option String) (context : Context)
  | additionalPermissions (userId : String) (context : Context)

namespace Operation

/-- What each operation returns. -/
@[reducible]
def Answer : Operation → Type
  | .createOrganization _ => Organization
  | .getOrganization _ => Option Organization
  | .getOrganizationBySlug _ _ => Option Organization
  | .listOrganizations _ => List Organization
  | .updateOrganization _ _ => Organization
  | .archiveOrganization _ => Organization
  | .addMember _ => Membership
  | .getMember _ _ => Option Membership
  | .listMemberships _ _ => List Membership
  | .pageMembers _ => MemberPage
  | .updateMember _ _ _ => Membership
  | .removeMember _ _ => Unit
  | .createRole _ => Role
  | .getRole _ => Option Role
  | .listRoles _ _ => List Role
  | .listAssignableRoles _ => List Role
  | .updateRole _ _ => Role
  | .deleteRole _ => Unit
  | .getRolePermissions _ _ => RolePermissions
  | .setRolePermissions _ _ _ => Unit
  | .createInvitation _ => Invitation
  | .acceptInvitation _ _ => Acceptance
  | .revokeInvitation _ _ => Bool
  | .findInvitation _ => Option Invitation
  | .listInvitations _ => List Invitation
  | .purgeInvitations => Nat
  | .resolvePermissions _ _ _ => List String
  | .resolveInOrganization _ _ => List String
  | .contributeClaims _ _ _ => List Claim
  | .additionalPermissions _ _ => List String

/-- The action that carries an operation out. -/
def action (deployment : Deployment) : (operation : Operation) → Action operation.Answer
  | .createOrganization draft => Organizations.create deployment.limits draft
  | .getOrganization id => Organizations.get id
  | .getOrganizationBySlug tenantId slug => Organizations.getBySlug deployment.limits tenantId slug
  | .listOrganizations tenantId => Organizations.list tenantId
  | .updateOrganization id patch => Organizations.update deployment.limits id patch
  | .archiveOrganization id => Organizations.archive deployment.limits id
  | .addMember draft => Members.add draft
  | .getMember organizationId userId => Members.get organizationId userId
  | .listMemberships userId tenantId => Members.listForUser userId tenantId
  | .pageMembers query => Members.page deployment.limits query
  | .updateMember organizationId userId patch => Members.update organizationId userId patch
  | .removeMember organizationId userId => Members.remove organizationId userId
  | .createRole draft => Roles.create deployment.limits draft
  | .getRole roleId => Roles.get roleId
  | .listRoles tenantId organizationId => Roles.list tenantId organizationId
  | .listAssignableRoles organizationId => Roles.listAssignable organizationId
  | .updateRole roleId patch => Roles.update deployment.limits roleId patch
  | .deleteRole roleId => Roles.delete roleId
  | .getRolePermissions roleId scope => Roles.permissions roleId scope
  | .setRolePermissions roleId scope names => Roles.setPermissions roleId scope names
  | .createInvitation draft => Invitations.create deployment.invitations draft
  | .acceptInvitation code user => Invitations.accept code user
  | .revokeInvitation organizationId code => Invitations.revoke organizationId code
  | .findInvitation code => Invitations.find code
  | .listInvitations organizationId => Invitations.list organizationId
  | .purgeInvitations => Invitations.purge
  | .resolvePermissions userId tenantId organizationId =>
    Resolution.permissions userId tenantId organizationId
  | .resolveInOrganization organizationId userId =>
    Resolution.inOrganization organizationId userId
  | .contributeClaims userId tenantId context => Resolution.claims userId tenantId context
  | .additionalPermissions userId context => Resolution.additional userId context

/-- Carry an operation out in a world where store calls go wrong as planned. -/
def runFaulty (deployment : Deployment) (operation : Operation) (plan : FaultPlan)
    (world : World) : Except Error operation.Answer × World :=
  (operation.action deployment).runFaulty plan world

end Operation
end Tenancy
