import Tenancy.Service.Action
import Tenancy.Service.Validation

/-!
# Tenancy - Operations on roles

Main definitions:

- `Roles.create`, `Roles.update`, `Roles.delete`: the life of a role.
- `Roles.assignable`: the check that requests for roles pass through.
- `Roles.permissions`: what a role grants at a scope.
- `Roles.setPermissions`: replacing what is granted at exactly one scope.
-/

namespace Tenancy
namespace Roles

open Tenancy.Action

/-! ## Assignable roles -/

/-- Check that an organization may assign each listed role, given the roles that exist. -/
def checkEach (org : Organization) (roles : List Role) : List String → Except Error Unit
  | [] => .ok ()
  | roleId :: rest =>
    match roles.find? (·.id == roleId) with
    | none => .error (.roleMissing roleId)
    | some role =>
      if role.fits org then checkEach org roles rest
      else .error (.roleOutOfScope roleId org.id)

/-- The requested roles, each once; one that is missing or does not fit refuses the request. -/
def assignable (org : Organization) (requested : List String) : Action (List String) := do
  let roleIds := Text.distinctTrimmed requested
  if roleIds.isEmpty then pure roleIds
  else
    let roles ← ask (.roles (.findMany roleIds))
    check (checkEach org roles roleIds)
    pure roleIds

/-- The listed roles that exist and fit; the others are passed over. -/
def stillAssignable (org : Organization) (listed : List String) : Action (List String) := do
  let roleIds := Text.distinctTrimmed listed
  if roleIds.isEmpty then pure roleIds
  else
    let roles ← ask (.roles (.findMany roleIds))
    pure (roleIds.filter fun roleId => roles.any fun role => role.id == roleId && role.fits org)

/-! ## The life of a role -/

/-- A note about a role, in its organization if it has one. -/
def noteAbout (event : AuditEvent) (role : Role) : AuditNote :=
  { (AuditNote.unscoped event).about role.id with organizationId := role.organizationId }

/-- Load a role that must exist. -/
def load (roleId : String) : Action Role := do
  let role ← ask (.roles (.find roleId))
  demand (.roleMissing roleId) role

/-- The tenant of a new role: its organization's, which a requested tenant must not contradict. -/
def tenantFor (org : Organization) (requested : Option String) : Except Error (Option String) :=
  match requested with
  | none => .ok org.tenantId
  | some tenantId =>
    if org.tenantId = some tenantId then .ok (some tenantId)
    else .error (.tenantMismatch (org.tenantId.getD "global") tenantId)

/-- The tenant of the role that a request describes. -/
def draftTenant (draft : Role.Draft) : Action (Option String) :=
  match draft.organizationId with
  | none => pure draft.tenantId
  | some organizationId => do
    let org ← loadOrganization organizationId
    check (tenantFor org draft.tenantId)

/-- Create a role whose name is free at its scope. -/
def create (limits : Limits) (draft : Role.Draft) : Action Role := do
  let name ← check (limits.checkRoleName draft.name)
  let description ← check (limits.checkDescription draft.description)
  let tenantId ← draftTenant draft
  let sameName ← ask (.roles (.findByName tenantId draft.organizationId name))
  require sameName.isNone (.roleNameTaken name)
  let now ← now
  let id ← freshId
  let role : Role :=
    { id := id, organizationId := draft.organizationId, tenantId := tenantId, name := name
      description := description, isSystem := draft.isSystem, createdAt := now
      updatedAt := now }
  ask (.roles (.create role))
  note ((noteAbout .roleCreated role).saying ("name=" ++ role.name))
  pure role

/-- The role with an id. -/
def get (roleId : String) : Action (Option Role) :=
  ask (.roles (.find roleId))

/-- The roles defined at exactly one scope. -/
def list (tenantId organizationId : Option String) : Action (List Role) :=
  ask (.roles (.list tenantId organizationId))

/-- The roles that an organization may assign. -/
def listAssignable (organizationId : String) : Action (List Role) := do
  let org ← loadOrganization organizationId
  ask (.roles (.listAssignable org.tenantId org.id))

/-- The name after a patch; a new one must be free at the role's scope. -/
def patchedName (limits : Limits) (role : Role) : Option String → Action String
  | none => pure role.name
  | some text => do
    let name ← check (limits.checkRoleName text)
    if name = role.name then pure name
    else
      let holder ← ask (.roles (.findByName role.tenantId role.organizationId name))
      require (holder.all (·.id == role.id)) (.roleNameTaken name)
      pure name

/-- The description after a patch. -/
def patchedDescription (limits : Limits) (role : Role) : Option String → Action (Option String)
  | none => pure role.description
  | some text => check (limits.checkDescription (some text))

/-- Rename or redescribe a role. -/
def update (limits : Limits) (roleId : String) (patch : Role.Patch) : Action Role := do
  let role ← load roleId
  let name ← patchedName limits role patch.name
  let description ← patchedDescription limits role patch.description
  if name = role.name ∧ description = role.description then pure role
  else
    let now ← now
    let updated := { role with name := name, description := description, updatedAt := now }
    ask (.roles (.update updated))
    note (noteAbout .roleUpdated updated)
    pure updated

/-- Delete a role and its grants; assignments stay and count for nothing. -/
def delete (roleId : String) : Action Unit := do
  let role ← load roleId
  require (!role.isSystem) (.systemRole roleId)
  let deleted ← ask (.roles (.delete roleId))
  require deleted (.roleMissing roleId)
  note ((noteAbout .roleDeleted role).saying ("name=" ++ role.name))

/-! ## Permissions -/

/-- The tenant whose grants a role is seen with at a scope. -/
def viewTenant (role : Role) : Option String → Action (Option String)
  | none => pure role.tenantId
  | some organizationId => do
    let org ← loadOrganization organizationId
    pure org.tenantId

/-- What a role grants in an organization, or at the global scope. -/
def permissions (roleId : String) (scope : Option String) : Action RolePermissions := do
  let role ← load roleId
  let tenantId ← viewTenant role scope
  let grants ← ask (.roles (.grantsOf [role.id]))
  let split := Grant.splitByScope grants role scope tenantId
  let ids := Text.keepFirst id [] (split.baseline ++ split.explicit)
  if ids.isEmpty then pure { effective := [], explicit := [] }
  else
    let names ← ask (.catalog (.namesForIds ids))
    pure (Permission.merge (Permission.namesOf names split.baseline)
      (Permission.namesOf names split.explicit))

/-- The tenant of grants at a scope; the role must be assignable there. -/
def scopeTenant (role : Role) (roleId : String) : Option String → Action (Option String)
  | some organizationId => do
    let org ← loadOrganization organizationId
    require (role.fits org) (.roleOutOfScope roleId organizationId)
    pure org.tenantId
  | none => do
    require role.isTemplate (.roleOutOfScope roleId "global")
    pure role.tenantId

/-- The ids of the named permissions; the first unknown name refuses them all. -/
def resolveNames (known : List (String × String)) : List String → Except Error (List String)
  | [] => .ok []
  | name :: rest =>
    match known.lookup (Text.lowercase name) with
    | none => .error (.unknownPermission name)
    | some id => (resolveNames known rest).map (id :: ·)

/-- The wanted permission ids for a list of names, each once. -/
def wantedIds (names : List String) : Action (List String) :=
  if names.isEmpty then pure []
  else do
    let known ← ask (.catalog (.idsForNames names))
    let ids ← check (resolveNames known names)
    pure (Text.keepFirst id [] ids)

/-- The wanted permissions that grants already give, and the ids of the grants to remove. -/
def keepWanted (wanted : List String) : List String → List Grant → List String × List String
  | kept, [] => (kept, [])
  | kept, grant :: rest =>
    if wanted.contains grant.permissionId && !kept.contains grant.permissionId then
      keepWanted wanted (grant.permissionId :: kept) rest
    else
      let (kept, removedIds) := keepWanted wanted kept rest
      (kept, grant.id :: removedIds)

/-- New grants with fresh ids for a list of permissions. -/
def newGrants (role : Role) (scope tenantId : Option String) : List String → Action (List Grant)
  | [] => pure []
  | permissionId :: rest => do
    let id ← freshId
    let others ← newGrants role scope tenantId rest
    pure ({ id := id, roleId := role.id, permissionId := permissionId, organizationId := scope,
            tenantId := tenantId } :: others)

/-- Whether a grant was given by a role at exactly one scope. -/
def isGrantAt (role : Role) (scope tenantId : Option String) (grant : Grant) : Bool :=
  grant.roleId == role.id && grant.organizationId == scope && grant.visibleToTenant tenantId

/-- Replace what a role grants at exactly one scope; only the difference is written. -/
def setPermissions (roleId : String) (scope : Option String) (names : List String) :
    Action Unit := do
  let role ← load roleId
  let tenantId ← scopeTenant role roleId scope
  let wanted ← wantedIds (Permission.normalize names)
  let grants ← ask (.roles (.grantsOf [role.id]))
  let (kept, removedIds) := keepWanted wanted [] (grants.filter (isGrantAt role scope tenantId))
  let added ← newGrants role scope tenantId (wanted.filter (!kept.contains ·))
  if added.isEmpty && removedIds.isEmpty then pure ()
  else
    ask (.roles (.changeGrants added removedIds))
    note
      { event := .rolePermissionsUpdated, organizationId := scope, actorId := none
        targetId := some role.id
        details := some ("added=" ++ toString added.length ++ ",removed=" ++
          toString removedIds.length) }

end Roles
end Tenancy
