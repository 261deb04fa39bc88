import Tenancy.Audit
import Tenancy.Directory
import Tenancy.Invitation
import Tenancy.Json.Shape
import Tenancy.Json.Writer
import Tenancy.Settings
import Tenancy.Text.Integer
import Tenancy.Token

/-!
# Tenancy - The records in JSON

Each record is written as an object that holds all of its fields, and read from
whatever shape a written record may have.  Claims are the exception: a claim
that is absent is left out.

Main definitions:

- `toJson` and `ofJson?` for metadata, organizations, memberships, roles, grants,
  invitations, users, audit entries, contexts, claims and settings.
- `Metadata.encoded`: the text whose size in bytes is limited and which is stored.
-/

namespace Tenancy

/-- A time in seconds. -/
def Json.time? : Json → Option Nat :=
  Json.nat? maxWord64

/-! ## Metadata -/

namespace Metadata

/-- The object with the keys in order. -/
def toJson (metadata : Metadata) : Json :=
  .record (metadata.entries.map fun entry => (entry.1, .text entry.2))

/-- The settings that an object's members make, if every value is a text. -/
def settings? (members : List (Option String × Json)) : Option (List (String × String)) :=
  members.mapM fun field => do
    let key ← field.1
    let value ← field.2.string?
    pure (key, value)

/-- Read a map; the last member with a key wins. -/
def ofJson? : Json → Option Metadata
  | .object members => (settings? members).map ofList
  | _ => none

/-- The compact text of a map. -/
def encoded (metadata : Metadata) : String :=
  metadata.toJson.render

/-- The size of the compact text in bytes. -/
def encodedSize (metadata : Metadata) : Nat :=
  metadata.encoded.utf8ByteSize

end Metadata

/-! ## Organizations -/

namespace Organization

/-- Read a status by its exact name. -/
def Status.ofJson? : Json → Option Status :=
  Json.choice? Status.named?

/-- The fields in order. -/
def fieldNames : List String :=
  ["id", "tenant_id", "slug", "display_name", "metadata", "status", "created_at", "updated_at",
    "archived_at"]

/-- The object with all fields. -/
def toJson (org : Organization) : Json :=
  .record [("id", .text org.id), ("tenant_id", .option .text org.tenantId),
    ("slug", .text org.slug), ("display_name", .text org.displayName),
    ("metadata", org.metadata.toJson), ("status", .text org.status.jsonName),
    ("created_at", .nat org.createdAt), ("updated_at", .nat org.updatedAt),
    ("archived_at", .option .nat org.archivedAt)]

/-- Read an organization. -/
def ofJson? (value : Json) : Option Organization := do
  match ← value.slots fieldNames with
  | [id, tenantId, slug, displayName, metadata, status, createdAt, updatedAt, archivedAt] =>
    pure
      { id := ← id.required Json.string?
        tenantId := ← tenantId.optional Json.string?
        slug := ← slug.required Json.string?
        displayName := ← displayName.required Json.string?
        metadata := ← metadata.required Metadata.ofJson?
        status := ← status.required Status.ofJson?
        createdAt := ← createdAt.required Json.time?
        updatedAt := ← updatedAt.required Json.time?
        archivedAt := ← archivedAt.optional Json.time? }
  | _ => none

end Organization

/-! ## Memberships -/

namespace RoleAssignment

/-- The fields in order. -/
def fieldNames : List String :=
  ["org_id", "user_id", "role_id", "tenant_id", "created_at"]

/-- The object with all fields. -/
def toJson (assignment : RoleAssignment) : Json :=
  .record [("org_id", .text assignment.organizationId), ("user_id", .text assignment.userId),
    ("role_id", .text assignment.roleId), ("tenant_id", .option .text assignment.tenantId),
    ("created_at", .nat assignment.createdAt)]

/-- Read an assignment. -/
def ofJson? (value : Json) : Option RoleAssignment := do
  match ← value.slots fieldNames with
  | [organizationId, userId, roleId, tenantId, createdAt] =>
    pure
      { organizationId := ← organizationId.required Json.string?
        userId := ← userId.required Json.string?
        roleId := ← roleId.required Json.string?
        tenantId := ← tenantId.optional Json.string?
        createdAt := ← createdAt.required Json.time? }
  | _ => none

end RoleAssignment

namespace Membership

/-- The fields in order. -/
def fieldNames : List String :=
  ["org_id", "user_id", "tenant_id", "is_primary", "roles", "created_at", "updated_at"]

/-- The object with all fields. -/
def toJson (member : Membership) : Json :=
  .record [("org_id", .text member.organizationId), ("user_id", .text member.userId),
    ("tenant_id", .option .text member.tenantId), ("is_primary", .bool member.isPrimary),
    ("roles", .list RoleAssignment.toJson member.roles), ("created_at", .nat member.createdAt),
    ("updated_at", .nat member.updatedAt)]

/-- Read a membership. -/
def ofJson? (value : Json) : Option Membership := do
  match ← value.slots fieldNames with
  | [organizationId, userId, tenantId, isPrimary, roles, createdAt, updatedAt] =>
    pure
      { organizationId := ← organizationId.required Json.string?
        userId := ← userId.required Json.string?
        tenantId := ← tenantId.optional Json.string?
        isPrimary := ← isPrimary.required Json.bool?
        roles := ← roles.required (Json.listOf? RoleAssignment.ofJson?)
        createdAt := ← createdAt.required Json.time?
        updatedAt := ← updatedAt.required Json.time? }
  | _ => none

end Membership

/-- The object with all fields of a page. -/
def MemberPage.toJson (page : MemberPage) : Json :=
  .record [("items", .list Membership.toJson page.items), ("total", .nat page.total),
    ("page", .nat page.page), ("page_size", .nat page.pageSize),
    ("total_pages", .nat page.totalPages)]

/-! ## Roles and grants -/

namespace Role

/-- The fields in order. -/
def fieldNames : List String :=
  ["id", "org_id", "tenant_id", "name", "description", "is_system_role", "created_at",
    "updated_at"]

/-- The object with all fields. -/
def toJson (role : Role) : Json :=
  .record [("id", .text role.id), ("org_id", .option .text role.organizationId),
    ("tenant_id", .option .text role.tenantId), ("name", .text role.name),
    ("description", .option .text role.description), ("is_system_role", .bool role.isSystem),
    ("created_at", .nat role.createdAt), ("updated_at", .nat role.updatedAt)]

/-- Read a role. -/
def ofJson? (value : Json) : Option Role := do
  match ← value.slots fieldNames with
  | [id, organizationId, tenantId, name, description, isSystem, createdAt, updatedAt] =>
    pure
      { id := ← id.required Json.string?
        organizationId := ← organizationId.optional Json.string?
        tenantId := ← tenantId.optional Json.string?
        name := ← name.required Json.string?
        description := ← description.optional Json.string?
        isSystem := ← isSystem.required Json.bool?
        createdAt := ← createdAt.required Json.time?
        updatedAt := ← updatedAt.required Json.time? }
  | _ => none

end Role

namespace Grant

/-- The fields in order. -/
def fieldNames : List String :=
  ["id", "role_id", "permission_id", "org_id", "tenant_id"]

/-- The object with all fields. -/
def toJson (grant : Grant) : Json :=
  .record [("id", .text grant.id), ("role_id", .text grant.roleId),
    ("permission_id", .text grant.permissionId), ("org_id", .option .text grant.organizationId),
    ("tenant_id", .option .text grant.tenantId)]

/-- Read a grant. -/
def ofJson? (value : Json) : Option Grant := do
  match ← value.slots fieldNames with
  | [id, roleId, permissionId, organizationId, tenantId] =>
    pure
      { id := ← id.required Json.string?
        roleId := ← roleId.required Json.string?
        permissionId := ← permissionId.required Json.string?
        organizationId := ← organizationId.optional Json.string?
        tenantId := ← tenantId.optional Json.string? }
  | _ => none

end Grant

/-- The object with both lists of names. -/
def RolePermissions.toJson (permissions : RolePermissions) : Json :=
  .record [("effective", .list .text permissions.effective),
    ("explicit", .list .text permissions.explicit)]

/-! ## Invitations -/

namespace Invitation

/-- The fields in order. -/
def fieldNames : List String :=
  ["code", "org_id", "org_slug", "org_display_name", "email", "role_ids", "created_by",
    "created_at", "expires_at"]

/-- The array of invited roles. -/
def roleIdsJson (roleIds : List String) : Json :=
  .list .text roleIds

/-- Read an array of invited roles. -/
def roleIds? : Json → Option (List String) :=
  Json.listOf? Json.string?

/-- The object with all fields. -/
def toJson (invitation : Invitation) : Json :=
  .record [("code", .text invitation.code), ("org_id", .text invitation.organizationId),
    ("org_slug", .text invitation.organizationSlug),
    ("org_display_name", .text invitation.organizationName), ("email", .text invitation.email),
    ("role_ids", roleIdsJson invitation.roleIds), ("created_by", .text invitation.createdBy),
    ("created_at", .nat invitation.createdAt), ("expires_at", .nat invitation.expiresAt)]

/-- Read an invitation. -/
def ofJson? (value : Json) : Option Invitation := do
  match ← value.slots fieldNames with
  | [code, organizationId, slug, name, email, roleIds, createdBy, createdAt, expiresAt] =>
    pure
      { code := ← code.required Json.string?
        organizationId := ← organizationId.required Json.string?
        organizationSlug := ← slug.required Json.string?
        organizationName := ← name.required Json.string?
        email := ← email.required Json.string?
        roleIds := ← roleIds.required roleIds?
        createdBy := ← createdBy.required Json.string?
        createdAt := ← createdAt.required Json.time?
        expiresAt := ← expiresAt.required Json.time? }
  | _ => none

end Invitation

/-- The object with all fields of an acceptance. -/
def Acceptance.toJson (acceptance : Acceptance) : Json :=
  .record [("org_id", .text acceptance.organizationId),
    ("org_slug", .text acceptance.organizationSlug),
    ("membership", acceptance.membership.toJson),
    ("was_existing_member", .bool acceptance.wasMember),
    ("user_predates_invitation", .bool acceptance.userPredatesInvitation)]

/-! ## Users -/

namespace User

/-- The fields in order. -/
def fieldNames : List String :=
  ["id", "email", "display_name", "created_at"]

/-- The object with all fields. -/
def toJson (user : User) : Json :=
  .record [("id", .text user.id), ("email", .text user.email),
    ("display_name", .option .text user.displayName), ("created_at", .nat user.createdAt)]

/-- Read a user. -/
def ofJson? (value : Json) : Option User := do
  match ← value.slots fieldNames with
  | [id, email, displayName, createdAt] =>
    pure
      { id := ← id.required Json.string?
        email := ← email.required Json.string?
        displayName := ← displayName.optional Json.string?
        createdAt := ← createdAt.required Json.time? }
  | _ => none

end User

/-! ## Audit entries -/

/-- Read an event by its name. -/
def AuditEvent.ofJson? : Json → Option AuditEvent :=
  Json.choice? AuditEvent.named?

namespace AuditEntry

/-- The fields in order. -/
def fieldNames : List String :=
  ["id", "event", "org_id", "actor_id", "target_id", "details", "timestamp"]

/-- The fields without the id. -/
def contentFields (entry : AuditEntry) : List (String × Json) :=
  [("event", .text entry.note.event.jsonName), ("org_id", .option .text entry.note.organizationId),
    ("actor_id", .option .text entry.note.actorId),
    ("target_id", .option .text entry.note.targetId),
    ("details", .option .text entry.note.details), ("timestamp", .nat entry.timestamp)]

/-- The object with all fields. -/
def toJson (entry : AuditEntry) : Json :=
  .record (("id", .text entry.id) :: entry.contentFields)

/-- Read an audit entry. -/
def ofJson? (value : Json) : Option AuditEntry := do
  match ← value.slots fieldNames with
  | [id, event, organizationId, actorId, targetId, details, timestamp] =>
    pure
      { id := ← id.required Json.string?
        note :=
          { event := ← event.required AuditEvent.ofJson?
            organizationId := ← organizationId.optional Json.string?
            actorId := ← actorId.optional Json.string?
            targetId := ← targetId.optional Json.string?
            details := ← details.optional Json.string? }
        timestamp := ← timestamp.required Json.time? }
  | _ => none

end AuditEntry

/-! ## Contexts and claims -/

namespace Context

/-- The fields in order. -/
def fieldNames : List String :=
  ["org_id", "slug", "display_name"]

/-- The object with all fields. -/
def toJson (context : Context) : Json :=
  .record [("org_id", .option .text context.organizationId), ("slug", .option .text context.slug),
    ("display_name", .option .text context.displayName)]

/-- Read a context. -/
def ofJson? (value : Json) : Option Context := do
  match ← value.slots fieldNames with
  | [organizationId, slug, displayName] =>
    pure
      { organizationId := ← organizationId.optional Json.string?
        slug := ← slug.optional Json.string?
        displayName := ← displayName.optional Json.string? }
  | _ => none

end Context

namespace Claim

/-- The fields in order. -/
def fieldNames : List String :=
  ["name", "value"]

/-- The object with both fields. -/
def toJson (claim : Claim) : Json :=
  .record [("name", .text claim.name), ("value", .text claim.value)]

/-- Read a claim. -/
def ofJson? (value : Json) : Option Claim := do
  match ← value.slots fieldNames with
  | [name, content] =>
    pure { name := ← name.required Json.string?, value := ← content.required Json.string? }
  | _ => none

end Claim

namespace TokenClaims

/-- The fields in order. -/
def fieldNames : List String :=
  ["permissions", "org_id", "org_slug", "org_name"]

/-- The object with the claims that are present. -/
def toJson (claims : TokenClaims) : Json :=
  .record (claims.toList.map fun claim => (claim.name, .text claim.value))

/-- Read claims. -/
def ofJson? (value : Json) : Option TokenClaims := do
  match ← value.slots fieldNames with
  | [permissions, organizationId, organizationSlug, organizationName] =>
    pure
      { permissions := ← permissions.optional Json.string?
        organizationId := ← organizationId.optional Json.string?
        organizationSlug := ← organizationSlug.optional Json.string?
        organizationName := ← organizationName.optional Json.string? }
  | _ => none

end TokenClaims

/-! ## Settings -/

/-- A size or length. -/
def Json.size? : Json → Option Nat :=
  Json.nat? maxWord64

/-- A count of items or hours. -/
def Json.count? : Json → Option Nat :=
  Json.nat? maxWord32

namespace Limits

/-- The fields in order. -/
def fieldNames : List String :=
  ["slug_max_length", "display_name_max_length", "role_name_max_length",
    "role_description_max_length", "metadata_max_key_length", "metadata_max_value_length",
    "metadata_max_bytes", "default_page_size", "max_page_size"]

/-- The object with all fields. -/
def toJson (limits : Limits) : Json :=
  .record [("slug_max_length", .nat limits.slugLength),
    ("display_name_max_length", .nat limits.displayNameLength),
    ("role_name_max_length", .nat limits.roleNameLength),
    ("role_description_max_length", .nat limits.roleDescriptionLength),
    ("metadata_max_key_length", .nat limits.metadataKeyLength),
    ("metadata_max_value_length", .nat limits.metadataValueLength),
    ("metadata_max_bytes", .nat limits.metadataBytes),
    ("default_page_size", .nat limits.defaultPageSize),
    ("max_page_size", .nat limits.maxPageSize)]

/-- Read limits; what is left out takes its standard value. -/
def ofJson? (value : Json) : Option Limits := do
  let base := standard
  match ← value.slots fieldNames with
  | [slug, displayName, roleName, description, key, content, bytes, pageSize, maxPageSize] =>
    pure
      { slugLength := ← slug.defaulted base.slugLength Json.size?
        displayNameLength := ← displayName.defaulted base.displayNameLength Json.size?
        roleNameLength := ← roleName.defaulted base.roleNameLength Json.size?
        roleDescriptionLength := ← description.defaulted base.roleDescriptionLength Json.size?
        metadataKeyLength := ← key.defaulted base.metadataKeyLength Json.size?
        metadataValueLength := ← content.defaulted base.metadataValueLength Json.size?
        metadataBytes := ← bytes.defaulted base.metadataBytes Json.size?
        defaultPageSize := ← pageSize.defaulted base.defaultPageSize Json.count?
        maxPageSize := ← maxPageSize.defaulted base.maxPageSize Json.count? }
  | _ => none

end Limits

namespace InvitationPolicy

/-- The fields in order. -/
def fieldNames : List String :=
  ["default_expiry_hours", "min_expiry_hours", "max_expiry_hours"]

/-- The object with all fields. -/
def toJson (policy : InvitationPolicy) : Json :=
  .record [("default_expiry_hours", .nat policy.defaultHours),
    ("min_expiry_hours", .nat policy.minHours), ("max_expiry_hours", .nat policy.maxHours)]

/-- Read a policy; what is left out takes its standard value. -/
def ofJson? (value : Json) : Option InvitationPolicy := do
  let base := standard
  match ← value.slots fieldNames with
  | [defaultHours, minHours, maxHours] =>
    pure
      { defaultHours := ← defaultHours.defaulted base.defaultHours Json.count?
        minHours := ← minHours.defaulted base.minHours Json.count?
        maxHours := ← maxHours.defaulted base.maxHours Json.count? }
  | _ => none

end InvitationPolicy

namespace Logging

/-- The fields in order. -/
def fieldNames : List String :=
  ["level", "json"]

/-- The object with both fields. -/
def toJson (logging : Logging) : Json :=
  .record [("level", .text logging.level), ("json", .bool logging.json)]

/-- Read a logging choice; what is left out takes its standard value. -/
def ofJson? (value : Json) : Option Logging := do
  let base := standard
  match ← value.slots fieldNames with
  | [level, json] =>
    pure
      { level := ← level.defaulted base.level Json.string?
        json := ← json.defaulted base.json Json.bool? }
  | _ => none

end Logging

namespace Settings

/-- The parts in order. -/
def fieldNames : List String :=
  ["logging", "organizations", "invitations"]

/-- The object with all parts. -/
def toJson (settings : Settings) : Json :=
  .record [("logging", settings.logging.toJson), ("organizations", settings.limits.toJson),
    ("invitations", settings.invitations.toJson)]

/-- Read settings; a part that is left out takes its standard values. -/
def ofJson? (value : Json) : Option Settings := do
  let base := standard
  match ← value.slots fieldNames with
  | [logging, limits, invitations] =>
    pure
      { logging := ← logging.defaulted base.logging Logging.ofJson?
        limits := ← limits.defaulted base.limits Limits.ofJson?
        invitations := ← invitations.defaulted base.invitations InvitationPolicy.ofJson? }
  | _ => none

end Settings
end Tenancy
