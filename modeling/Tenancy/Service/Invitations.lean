import Tenancy.Service.Members
import Tenancy.Text.Base64Url

/-!
# Tenancy - Operations on invitations

Main definitions:

- `Invitations.create`: an invitation, unless an unexpired one for the address exists.
- `Invitations.accept`: joining, or gaining the invited roles; the invitation ends.
- `Invitations.revoke`, `Invitations.purge`: the other ends of an invitation.
- `Invitations.find`, `Invitations.list`: reading.
-/

namespace Tenancy
namespace Invitations

open Tenancy.Action

/-! ## Inviting -/

/-- Make way for a new invitation: an expired one is deleted, an unexpired one refuses it. -/
def replaceExpired (now : Nat) : Option Invitation → Action Unit
  | none => pure ()
  | some existing => do
    require (existing.isExpiredAt now) .alreadyInvited
    let _ ← ask (.invitations (.delete existing.code))
    pure ()

/-- Store an invitation; losing a race for the address counts as already invited. -/
def store (invitation : Invitation) : Action Unit := do
  match ← attempt (.invitations (.create invitation)) with
  | .ok () => pure ()
  | .error (.conflict _) => throw .alreadyInvited
  | .error error => throw (.storage error)

/-- Invite an address to an organization. -/
def create (policy : InvitationPolicy) (draft : Invitation.Draft) : Action Invitation := do
  let email ← check (checkEmail draft.email)
  check (checkNotBlank "created_by" draft.createdBy)
  let org ← loadOrganization draft.organizationId
  let roleIds ← Roles.assignable org draft.roleIds
  let now ← now
  let existing ← ask (.invitations (.findForEmail org.id email))
  replaceExpired now existing
  let bytes ← randomBytes
  let invitation : Invitation :=
    { code := Text.Base64Url.encode bytes, organizationId := org.id, organizationSlug := org.slug
      organizationName := org.displayName, email := email, roleIds := roleIds
      createdBy := draft.createdBy, createdAt := now
      expiresAt := now + policy.lifetime draft.expiresInHours }
  store invitation
  note (((AuditNote.within .invitationCreated org.id).signedBy invitation.createdBy).saying
    ("roles=" ++ toString invitation.roleIds.length))
  pure invitation

/-! ## Accepting -/

/-- Delete an invitation and fail. -/
def endWith {α : Type} (code : String) (error : Error) : Action α := do
  let _ ← ask (.invitations (.delete code))
  throw error

/-- Give a member the invited roles that are not held yet. -/
def mergeRoles (org : Organization) (member : Membership) (roleIds : List String) (now : Nat) :
    Action Membership :=
  let added := member.missingRoles org roleIds now
  if added.isEmpty then pure member
  else
    ask (.memberships (.applyChange
      { organizationId := org.id, userId := member.userId, isPrimary := none
        clearsOthers := false, added := added, removedRoleIds := [], updatedAt := now }))

/-- The membership of an accepting user: a new one, or the old one with the invited roles. -/
def join (org : Organization) (userId : String) (roleIds : List String) (now : Nat) :
    Option Membership → Action Membership
  | some member => mergeRoles org member roleIds now
  | none => do
    let member := Membership.create org userId false roleIds now
    ask (.memberships (.insert member false))
    pure member

/-- Accept an invitation as a user with its address. -/
def accept (code : String) (user : User) : Action Acceptance := do
  let found ← ask (.invitations (.findByCode code))
  let invitation ← demand .invitationMissing found
  require (Text.Email.normalize user.email == invitation.email) .addressMismatch
  let now ← now
  if invitation.isExpiredAt now then endWith code .invitationExpired
  else
    match ← ask (.organizations (.findById invitation.organizationId)) with
    | none => endWith code .invitationMissing
    | some org =>
      let roleIds ← Roles.stillAssignable org invitation.roleIds
      let existing ← ask (.memberships (.find org.id user.id))
      let member ← join org user.id roleIds now existing
      let _ ← ask (.invitations (.delete code))
      note (((AuditNote.within .invitationAccepted org.id).signedBy user.id).about user.id)
      let event := if existing.isSome then AuditEvent.memberUpdated else .memberAdded
      note (((AuditNote.within event org.id).about user.id).saying "via=invitation")
      pure
        { organizationId := org.id, organizationSlug := org.slug, membership := member
          wasMember := existing.isSome
          userPredatesInvitation := user.createdAt < invitation.createdAt }

/-! ## Ending and reading -/

/-- Revoke an invitation of an organization; `false` if there is none with the code. -/
def revoke (organizationId code : String) : Action Bool := do
  let found ← ask (.invitations (.findByCode code))
  match found.filter (·.organizationId == organizationId) with
  | none => pure false
  | some invitation =>
    let deleted ← ask (.invitations (.delete invitation.code))
    if deleted then
      note (AuditNote.within .invitationRevoked organizationId)
      pure true
    else pure false

/-- The invitation with a code, expired or not. -/
def find (code : String) : Action (Option Invitation) :=
  ask (.invitations (.findByCode code))

/-- The unexpired invitations of an organization, newest first. -/
def list (organizationId : String) : Action (List Invitation) := do
  let now ← now
  let invitations ← ask (.invitations (.listForOrganization organizationId))
  pure (invitations.filter (!·.isExpiredAt now))

/-- Delete every expired invitation and return how many there were. -/
def purge : Action Nat := do
  let now ← now
  ask (.invitations (.deleteExpired now))

end Invitations
end Tenancy
