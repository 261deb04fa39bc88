import Tenancy.Json.Reader
import Tenancy.Json.Records
import Tenancy.Sql.Connection

/-!
# Tenancy - Records as rows

Each record has a table, a way into its row, and a way back.  Times are stored
as signed numbers, so a time beyond their range is stored as the latest one and
a negative one reads as zero.  Metadata and invited roles are stored as JSON.

Main definitions:

- `Sql.Table.organizations` and its siblings: the tables.
- `cells` and `ofRow` for each record.
- `Sql.assemble`: memberships with their role assignments attached.
-/

namespace Tenancy
namespace Sql

/-! ## Reading cells -/

namespace Row

/-- The failure to read a cell of another kind, or one that is not there. -/
def malformed (column : String) : StoreError :=
  .database ("malformed column " ++ column)

/-- Read a cell. -/
def cell {α : Type} (read : Value → Option α) (row : Row) (column : String) :
    Except StoreError α :=
  match (row.lookup column).bind read with
  | some value => .ok value
  | none => .error (malformed column)

/-- The text of a cell. -/
def textOf? : Value → Option String
  | .text value => some value
  | _ => none

/-- The truth value of a cell. -/
def boolOf? : Value → Option Bool
  | .bool value => some value
  | _ => none

/-- The time in a cell; a negative number reads as zero. -/
def timeOf? : Value → Option Nat
  | .int value => some value.toNat
  | _ => none

/-- What a cell holds unless it is null. -/
def orNull {α : Type} (read : Value → Option α) : Value → Option (Option α)
  | .null => some none
  | value => (read value).map some

/-- A text. -/
def text : Row → String → Except StoreError String :=
  cell textOf?

/-- A text or nothing. -/
def text? : Row → String → Except StoreError (Option String) :=
  cell (orNull textOf?)

/-- A truth value. -/
def bool : Row → String → Except StoreError Bool :=
  cell boolOf?

/-- A time. -/
def time : Row → String → Except StoreError Nat :=
  cell timeOf?

/-- A time or nothing. -/
def time? : Row → String → Except StoreError (Option Nat) :=
  cell (orNull timeOf?)

end Row

/-! ## Tables -/

namespace Table

/-- Organizations. -/
def organizations : Table :=
  { name := "organizations", columns := Organization.fieldNames, key := ["id"] }

/-- Memberships without their roles. -/
def memberships : Table :=
  { name := "organization_memberships"
    columns := ["org_id", "user_id", "tenant_id", "is_primary", "created_at", "updated_at"]
    key := ["org_id", "user_id"] }

/-- Role assignments. -/
def assignments : Table :=
  { name := "organization_member_roles", columns := RoleAssignment.fieldNames
    key := ["org_id", "user_id", "role_id"] }

/-- Roles. -/
def roles : Table :=
  { name := "organization_roles", columns := Role.fieldNames, key := ["id"] }

/-- Grants. -/
def grants : Table :=
  { name := "organization_role_permissions", columns := Grant.fieldNames, key := ["id"] }

/-- Invitations. -/
def invitations : Table :=
  { name := "organization_invitations", columns := Invitation.fieldNames, key := ["code"] }

/-- Audit entries. -/
def audit : Table :=
  { name := "organization_audit_log", columns := AuditEntry.fieldNames, key := ["id"] }

/-- The row of a table that holds the given cells. -/
def row (table : Table) (cells : List Value) : Row :=
  table.columns.zip cells

end Table
end Sql

open Sql

/-! ## Organizations -/

namespace Organization

/-- The cells in the order of the columns. -/
def cells (org : Organization) : List Value :=
  [.text org.id, .option .text org.tenantId, .text org.slug, .text org.displayName,
    .text org.metadata.encoded, .text org.status.name, .time org.createdAt, .time org.updatedAt,
    .option .time org.archivedAt]

/-- Read the stored metadata of an organization. -/
def storedMetadata (id encoded : String) : Except StoreError Metadata :=
  match (Json.read encoded).bind Metadata.ofJson? with
  | some metadata => .ok metadata
  | none => .error (.internal ("organization " ++ id ++ " metadata"))

/-- Read the stored status of an organization. -/
def storedStatus (id raw : String) : Except StoreError Status :=
  match Status.parse raw with
  | some status => .ok status
  | none => .error (.internal ("organization " ++ id ++ ": " ++ Status.parseMessage raw))

/-- Read an organization. -/
def ofRow (row : Row) : Except StoreError Organization := do
  let id ← row.text "id"
  let tenantId ← row.text? "tenant_id"
  let slug ← row.text "slug"
  let displayName ← row.text "display_name"
  let encoded ← row.text "metadata"
  let raw ← row.text "status"
  let createdAt ← row.time "created_at"
  let updatedAt ← row.time "updated_at"
  let archivedAt ← row.time? "archived_at"
  let metadata ← storedMetadata id encoded
  let status ← storedStatus id raw
  pure
    { id := id, tenantId := tenantId, slug := slug, displayName := displayName
      metadata := metadata, status := status, createdAt := createdAt, updatedAt := updatedAt
      archivedAt := archivedAt }

end Organization

/-! ## Memberships -/

namespace RoleAssignment

/-- The cells in the order of the columns. -/
def cells (assignment : RoleAssignment) : List Value :=
  [.text assignment.organizationId, .text assignment.userId, .text assignment.roleId,
    .option .text assignment.tenantId, .time assignment.createdAt]

/-- Read an assignment. -/
def ofRow (row : Row) : Except StoreError RoleAssignment := do
  let organizationId ← row.text "org_id"
  let userId ← row.text "user_id"
  let roleId ← row.text "role_id"
  let tenantId ← row.text? "tenant_id"
  let createdAt ← row.time "created_at"
  pure
    { organizationId := organizationId, userId := userId, roleId := roleId, tenantId := tenantId
      createdAt := createdAt }

end RoleAssignment

namespace Membership

/-- The cells in the order of the columns; the roles are rows of their own. -/
def cells (member : Membership) : List Value :=
  [.text member.organizationId, .text member.userId, .option .text member.tenantId,
    .bool member.isPrimary, .time member.createdAt, .time member.updatedAt]

/-- Read a membership, without roles. -/
def ofRow (row : Row) : Except StoreError Membership := do
  let organizationId ← row.text "org_id"
  let userId ← row.text "user_id"
  let tenantId ← row.text? "tenant_id"
  let isPrimary ← row.bool "is_primary"
  let createdAt ← row.time "created_at"
  let updatedAt ← row.time "updated_at"
  pure
    { organizationId := organizationId, userId := userId, tenantId := tenantId
      isPrimary := isPrimary, roles := [], createdAt := createdAt, updatedAt := updatedAt }

/-- Whether an assignment is one of the member's. -/
def owns (member : Membership) (assignment : RoleAssignment) : Bool :=
  assignment.organizationId == member.organizationId && assignment.userId == member.userId

end Membership

/--
Attach assignments to memberships, in their order.  An assignment goes to the
first membership that owns it and to no other.
-/
def Sql.assemble (assignments : List RoleAssignment) : List Membership → List Membership
  | [] => []
  | member :: rest =>
    { member with roles := assignments.filter member.owns } ::
      Sql.assemble (assignments.filter (!member.owns ·)) rest

/-! ## Roles and grants -/

namespace Role

/-- The cells in the order of the columns. -/
def cells (role : Role) : List Value :=
  [.text role.id, .option .text role.organizationId, .option .text role.tenantId, .text role.name,
    .option .text role.description, .bool role.isSystem, .time role.createdAt,
    .time role.updatedAt]

/-- Read a role. -/
def ofRow (row : Row) : Except StoreError Role := do
  let id ← row.text "id"
  let organizationId ← row.text? "org_id"
  let tenantId ← row.text? "tenant_id"
  let name ← row.text "name"
  let description ← row.text? "description"
  let isSystem ← row.bool "is_system_role"
  let createdAt ← row.time "created_at"
  let updatedAt ← row.time "updated_at"
  pure
    { id := id, organizationId := organizationId, tenantId := tenantId, name := name
      description := description, isSystem := isSystem, createdAt := createdAt
      updatedAt := updatedAt }

end Role

namespace Grant

/-- The cells in the order of the columns. -/
def cells (grant : Grant) : List Value :=
  [.text grant.id, .text grant.roleId, .text grant.permissionId,
    .option .text grant.organizationId, .option .text grant.tenantId]

/-- Read a grant. -/
def ofRow (row : Row) : Except StoreError Grant := do
  let id ← row.text "id"
  let roleId ← row.text "role_id"
  let permissionId ← row.text "permission_id"
  let organizationId ← row.text? "org_id"
  let tenantId ← row.text? "tenant_id"
  pure
    { id := id, roleId := roleId, permissionId := permissionId, organizationId := organizationId
      tenantId := tenantId }

end Grant

/-! ## Invitations -/

namespace Invitation

/-- The cells in the order of the columns. -/
def cells (invitation : Invitation) : List Value :=
  [.text invitation.code, .text invitation.organizationId, .text invitation.organizationSlug,
    .text invitation.organizationName, .text invitation.email,
    .text (roleIdsJson invitation.roleIds).render, .text invitation.createdBy,
    .time invitation.createdAt, .time invitation.expiresAt]

/-- Read the stored roles of an invitation. -/
def storedRoleIds (encoded : String) : Except StoreError (List String) :=
  match (Json.read encoded).bind roleIds? with
  | some roleIds => .ok roleIds
  | none => .error (.internal "invitation role ids")

/-- Read an invitation. -/
def ofRow (row : Row) : Except StoreError Invitation := do
  let code ← row.text "code"
  let organizationId ← row.text "org_id"
  let slug ← row.text "org_slug"
  let name ← row.text "org_display_name"
  let email ← row.text "email"
  let encoded ← row.text "role_ids"
  let createdBy ← row.text "created_by"
  let createdAt ← row.time "created_at"
  let expiresAt ← row.time "expires_at"
  let roleIds ← storedRoleIds encoded
  pure
    { code := code, organizationId := organizationId, organizationSlug := slug
      organizationName := name, email := email, roleIds := roleIds, createdBy := createdBy
      createdAt := createdAt, expiresAt := expiresAt }

end Invitation

/-! ## Audit entries -/

namespace AuditEntry

/-- The cells in the order of the columns. -/
def cells (entry : AuditEntry) : List Value :=
  [.text entry.id, .text entry.note.event.name, .option .text entry.note.organizationId,
    .option .text entry.note.actorId, .option .text entry.note.targetId,
    .option .text entry.note.details, .time entry.timestamp]

/-- Read a stored event. -/
def storedEvent (name : String) : Except StoreError AuditEvent :=
  match AuditEvent.named? name with
  | some event => .ok event
  | none => .error (.internal "audit event")

/-- Read an audit entry. -/
def ofRow (row : Row) : Except StoreError AuditEntry := do
  let id ← row.text "id"
  let name ← row.text "event"
  let organizationId ← row.text? "org_id"
  let actorId ← row.text? "actor_id"
  let targetId ← row.text? "target_id"
  let details ← row.text? "details"
  let timestamp ← row.time "timestamp"
  let event ← storedEvent name
  pure
    { id := id
      note :=
        { event := event, organizationId := organizationId, actorId := actorId
          targetId := targetId, details := details }
      timestamp := timestamp }

end AuditEntry
end Tenancy
