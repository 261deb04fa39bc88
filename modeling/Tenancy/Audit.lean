import Tenancy.Text.Basic

/-!
# Tenancy - Audit entries

Every successful change leaves a note; the audit trail stamps it with an id and
the time when it takes it in.

Main definitions:

- `AuditEvent`: the kinds of change.
- `AuditEvent.name`, `AuditEvent.jsonName`: the names under which events are
  written to tables, and those under which they are written to JSON and read.
- `AuditNote`: what happened, where, by whom and to whom.
- `AuditEntry`: a note with id and time.
-/

namespace Tenancy

/-- A kind of change. -/
inductive AuditEvent
  | orgCreated
  | orgUpdated
  | orgArchived
  | memberAdded
  | memberUpdated
  | memberRemoved
  | roleCreated
  | roleUpdated
  | roleDeleted
  | rolePermissionsUpdated
  | invitationCreated
  | invitationAccepted
  | invitationRevoked
deriving DecidableEq, Repr, Inhabited

namespace AuditEvent

/-- The name under which an event is stored. -/
def name : AuditEvent → String
  | .orgCreated => "org_created"
  | .orgUpdated => "org_updated"
  | .orgArchived => "org_archived"
  | .memberAdded => "member_added"
  | .memberUpdated => "member_updated"
  | .memberRemoved => "member_removed"
  | .roleCreated => "role_created"
  | .roleUpdated => "role_updated"
  | .roleDeleted => "role_deleted"
  | .rolePermissionsUpdated => "role_permissions_updated"
  | .invitationCreated => "invitation_created"
  | .invitationAccepted => "invitation_accepted"
  | .invitationRevoked => "invitation_revoked"

/-- Every event. -/
def all : List AuditEvent :=
  [.orgCreated, .orgUpdated, .orgArchived, .memberAdded, .memberUpdated, .memberRemoved,
    .roleCreated, .roleUpdated, .roleDeleted, .rolePermissionsUpdated, .invitationCreated,
    .invitationAccepted, .invitationRevoked]

/-- The name of an event in camel case. -/
def identifier : AuditEvent → String
  | .orgCreated => "OrgCreated"
  | .orgUpdated => "OrgUpdated"
  | .orgArchived => "OrgArchived"
  | .memberAdded => "MemberAdded"
  | .memberUpdated => "MemberUpdated"
  | .memberRemoved => "MemberRemoved"
  | .roleCreated => "RoleCreated"
  | .roleUpdated => "RoleUpdated"
  | .roleDeleted => "RoleDeleted"
  | .rolePermissionsUpdated => "RolePermissionsUpdated"
  | .invitationCreated => "InvitationCreated"
  | .invitationAccepted => "InvitationAccepted"
  | .invitationRevoked => "InvitationRevoked"

/-- The name of an event in JSON.  Events are read by this name, also from tables. -/
def jsonName (event : AuditEvent) : String :=
  Text.snakeCase event.identifier

/-- The event with a name in JSON. -/
def named? (name : String) : Option AuditEvent :=
  all.find? (·.jsonName == name)

end AuditEvent

/-- What happened. -/
structure AuditNote where
  event : AuditEvent
  organizationId : Option String
  actorId : Option String
  targetId : Option String
  details : Option String
deriving DecidableEq, Inhabited

namespace AuditNote

/-- A note about an organization. -/
def within (event : AuditEvent) (organizationId : String) : AuditNote :=
  { event := event, organizationId := some organizationId, actorId := none, targetId := none,
    details := none }

/-- A note that names no organization. -/
def unscoped (event : AuditEvent) : AuditNote :=
  { event := event, organizationId := none, actorId := none, targetId := none, details := none }

/-- The note with an acting user. -/
def signedBy (note : AuditNote) (actorId : String) : AuditNote :=
  { note with actorId := some actorId }

/-- The note with a target. -/
def about (note : AuditNote) (targetId : String) : AuditNote :=
  { note with targetId := some targetId }

/-- The note with details. -/
def saying (note : AuditNote) (details : String) : AuditNote :=
  { note with details := some details }

end AuditNote

/-- A note as the audit trail keeps it. -/
structure AuditEntry where
  id : String
  note : AuditNote
  timestamp : Nat
deriving DecidableEq, Inhabited

end Tenancy
