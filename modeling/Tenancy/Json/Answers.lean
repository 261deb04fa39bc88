import Tenancy.Json.Records
import Tenancy.Operation

/-!
# Tenancy - The answers of operations in JSON

Main definitions:

- `Operation.answerJson`: what an operation returned, in JSON; an operation that
  returns nothing answers null.
-/

namespace Tenancy
namespace Operation

/-- What an operation returned, in JSON. -/
def answerJson : (operation : Operation) → operation.Answer → Json
  | .createOrganization _, a => Organization.toJson a
  | .getOrganization _, a => .option Organization.toJson a
  | .getOrganizationBySlug _ _, a => .option Organization.toJson a
  | .listOrganizations _, a => .list Organization.toJson a
  | .updateOrganization _ _, a => Organization.toJson a
  | .archiveOrganization _, a => Organization.toJson a
  | .addMember _, a => Membership.toJson a
  | .getMember _ _, a => .option Membership.toJson a
  | .listMemberships _ _, a => .list Membership.toJson a
  | .pageMembers _, a => MemberPage.toJson a
  | .updateMember _ _ _, a => Membership.toJson a
  | .removeMember _ _, _ => .null
  | .createRole _, a => Role.toJson a
  | .getRole _, a => .option Role.toJson a
  | .listRoles _ _, a => .list Role.toJson a
  | .listAssignableRoles _, a => .list Role.toJson a
  | .updateRole _ _, a => Role.toJson a
  | .deleteRole _, _ => .null
  | .getRolePermissions _ _, a => RolePermissions.toJson a
  | .setRolePermissions _ _ _, _ => .null
  | .createInvitation _, a => Invitation.toJson a
  | .acceptInvitation _ _, a => Acceptance.toJson a
  | .revokeInvitation _ _, a => .bool a
  | .findInvitation _, a => .option Invitation.toJson a
  | .listInvitations _, a => .list Invitation.toJson a
  | .purgeInvitations, a => .nat a
  | .resolvePermissions _ _ _, a => .list .text a
  | .resolveInOrganization _ _, a => .list .text a
  | .contributeClaims _ _ _, a => .list Claim.toJson a
  | .additionalPermissions _ _, a => .list .text a

end Operation
end Tenancy
