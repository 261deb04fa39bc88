import Tenancy.Service.Roles

/-!
# Tenancy - Operations on memberships

Main definitions:

- `Members.add`, `Members.update`, `Members.remove`: changes.
- `Members.get`, `Members.listForUser`, `Members.page`: reading.
-/

namespace Tenancy
namespace Members

open Tenancy.Action

/-- Check that a request names the organization's tenant, if both have one. -/
def checkTenant (org : Organization) (requested : Option String) : Except Error Unit :=
  match org.tenantId, requested with
  | some expected, some actual =>
    if expected = actual then .ok () else .error (.tenantMismatch expected actual)
  | _, _ => .ok ()

/-- Add a user to an organization; a primary membership makes the others in the tenant secondary. -/
def add (draft : Membership.Draft) : Action Membership := do
  check (checkNotBlank "user_id" draft.userId)
  let org ← loadOrganization draft.organizationId
  check (checkTenant org draft.tenantId)
  let existing ← ask (.memberships (.find org.id draft.userId))
  require existing.isNone .alreadyMember
  let roleIds ← Roles.assignable org draft.roleIds
  let now ← now
  let member := Membership.create org draft.userId draft.isPrimary roleIds now
  ask (.memberships (.insert member member.isPrimary))
  note ((AuditNote.within .memberAdded org.id).about member.userId)
  pure member

/-- The membership of a user in an organization. -/
def get (organizationId userId : String) : Action (Option Membership) :=
  ask (.memberships (.find organizationId userId))

/-- The order of a user's memberships: primary first, then by creation, then by organization. -/
def ownLE (a b : Membership) : Bool :=
  if a.isPrimary != b.isPrimary then a.isPrimary
  else a.createdAt < b.createdAt ||
    (a.createdAt == b.createdAt && decide (a.organizationId ≤ b.organizationId))

/-- A user's memberships in one tenant, or in all. -/
def listForUser (userId : String) (tenantId : Option String) : Action (List Membership) := do
  let memberships ← ask (.memberships (.listForUser userId))
  pure ((memberships.filter fun member =>
    tenantId.all (some · == member.tenantId)).mergeSort ownLE)

/-- The number of pages that hold `total` members, as far as it can be counted. -/
def pageCount (total pageSize : Nat) : Nat :=
  min ((total + pageSize - 1) / pageSize) maxWord32

/-- The users that a search text finds; a blank text does not restrict. -/
def searchUsers (search : Option String) : Action (Option (List String)) :=
  match (search.map Text.trim).filter (· != "") with
  | none => pure none
  | some text => do
    let ids ← ask (.directory (.searchUserIds (.containing text)))
    pure (some ids)

/-- One page of an organization's members. -/
def page (limits : Limits) (query : MemberQuery) : Action MemberPage := do
  let number := max (query.page.getD 1) 1
  let pageSize := limits.clampPageSize query.pageSize
  let userIds ← searchUsers query.search
  if userIds = some [] then pure (.empty number pageSize)
  else
    let filter : MemberFilter :=
      { organizationId := query.organizationId, isPrimary := query.isPrimary
        roleId := query.roleId, userIds := userIds }
    let (items, total) ← ask (.memberships (.query filter ((number - 1) * pageSize) pageSize))
    if total = 0 then pure (.empty number pageSize)
    else
      pure { items := items, total := total, page := number, pageSize := pageSize,
             totalPages := pageCount total pageSize }

/-- The delta without changes. -/
def noChange (member : Membership) (now : Nat) : Membership.Change :=
  { organizationId := member.organizationId, userId := member.userId, isPrimary := none
    clearsOthers := false, added := [], removedRoleIds := [], updatedAt := now }

/-- The delta with the primary flag of a patch; becoming primary clears the others. -/
def withFlag (change : Membership.Change) (member : Membership) (flag : Option Bool) :
    Membership.Change :=
  match flag with
  | some isPrimary =>
    if isPrimary = member.isPrimary then change
    else { change with isPrimary := some isPrimary, clearsOthers := isPrimary }
  | none => change

/-- The delta with the roles of a patch; only roles not yet held must be assignable. -/
def withRoles (change : Membership.Change) (member : Membership) (organizationId : String)
    (now : Nat) : Option (List String) → Action Membership.Change
  | none => pure change
  | some roleIds => do
    let wanted := Text.distinctTrimmed roleIds
    let org ← loadOrganization organizationId
    let _ ← Roles.assignable org (wanted.filter (!member.hasRole ·))
    pure { change with
           added := member.missingRoles org wanted now
           removedRoleIds := member.surplusRoles wanted }

/-- Change a membership's primary flag or roles; only the difference is written. -/
def update (organizationId userId : String) (patch : Membership.Patch) : Action Membership := do
  let found ← ask (.memberships (.find organizationId userId))
  let member ← demand (.membershipMissing organizationId userId) found
  let now ← now
  let base := { noChange member now with organizationId := organizationId, userId := userId }
  let change ← withRoles (withFlag base member patch.isPrimary) member organizationId now
    patch.roleIds
  if change.isEmpty then pure member
  else
    let updated ← ask (.memberships (.applyChange change))
    note (((AuditNote.within .memberUpdated organizationId).about userId).saying
      ("added=" ++ toString change.added.length ++ ",removed=" ++
        toString change.removedRoleIds.length))
    pure updated

/-- Remove a member; removing someone who is none does nothing. -/
def remove (organizationId userId : String) : Action Unit := do
  let deleted ← ask (.memberships (.delete organizationId userId))
  if deleted then note ((AuditNote.within .memberRemoved organizationId).about userId)
  else pure ()

end Members
end Tenancy
