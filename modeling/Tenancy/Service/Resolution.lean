import Tenancy.Context.Flow
import Tenancy.Service.Action
import Tenancy.Token

/-!
# Tenancy - Resolving a user's permissions

Permissions come from the roles that a member holds and from outside every
organization.  When the permission catalog fails, what it would have named is
left out; a failing membership or role store fails the resolution.

Main definitions:

- `Resolution.inOrganization`: what a user holds in one organization.
- `Resolution.permissions`: that and what the user holds everywhere.
- `Resolution.claims`, `Resolution.additional`: the two hooks that read the
  ambient organization.
-/

namespace Tenancy
namespace Resolution

open Tenancy.Action

/-- The names of permission ids; none if the catalog fails. -/
def namesOf (ids : List String) : Action (List String) := do
  match ← attempt (.catalog (.namesForIds ids)) with
  | .ok names => pure (Permission.normalize (Permission.namesOf names ids))
  | .error _ => pure []

/-- The permissions that assigned roles give a member. -/
def ofMember (organizationId : String) (member : Membership) : Action (List String) := do
  let assigned := Text.distinctTrimmed member.roleIds
  if assigned.isEmpty then pure []
  else
    let roles ← ask (.roles (.findMany assigned))
    let live := roles.map (·.id)
    if live.isEmpty then pure []
    else
      let grants ← ask (.roles (.grantsOf live))
      let ids := Text.distinctTrimmed
        (Grant.visibleToMember grants live organizationId member.tenantId)
      if ids.isEmpty then pure [] else namesOf ids

/-- The permissions that a user holds in an organization. -/
def inOrganization (organizationId userId : String) : Action (List String) := do
  match ← ask (.memberships (.find organizationId userId)) with
  | none => pure []
  | some member => ofMember organizationId member

/-- The permissions that a user holds outside every organization; none if the catalog fails. -/
def global (userId : String) (tenantId : Option String) : Action (List String) := do
  match ← attempt (.catalog (.userPermissions userId tenantId)) with
  | .ok names => pure names
  | .error _ => pure []

/-- The permissions in the organization that is named, if one is. -/
def ofNamed (userId : String) (organizationId : Option String) : Action (List String) :=
  match (organizationId.map Text.trim).filter (· != "") with
  | none => pure []
  | some organizationId => inOrganization organizationId userId

/-- All permissions of a user for an organization, or for none. -/
def permissions (userId : String) (tenantId organizationId : Option String) :
    Action (List String) := do
  let everywhere ← global userId tenantId
  let there ← ofNamed userId organizationId
  pure (Permission.normalize (everywhere ++ there))

/-! ## Hooks -/

/-- The claims to put into a user's token under an ambient organization. -/
def claims (userId : String) (tenantId : Option String) (context : Context) :
    Action (List Claim) := do
  let names ← permissions userId tenantId context.organizationId
  pure (TokenClaims.ofPermissions names context).toList

/-- The permissions that the ambient organization gives a user. -/
def additional (userId : String) (context : Context) : Action (List String) :=
  match context.organizationId with
  | none => pure []
  | some organizationId => inOrganization organizationId userId

end Resolution
end Tenancy
