import Tenancy.Service.Action
import Tenancy.Service.Validation

/-!
# Tenancy - Operations on organizations

Main definitions:

- `Organizations.create`: a new organization, its slug and name free in its tenant.
- `Organizations.get`, `Organizations.getBySlug`, `Organizations.list`: reading.
- `Organizations.update`, `Organizations.archive`: changes; one that changes nothing writes nothing.
-/

namespace Tenancy
namespace Organizations

open Tenancy.Action

/-- Create an active organization. -/
def create (limits : Limits) (draft : Organization.Draft) : Action Organization := do
  let slug ← check (limits.checkSlug draft.slug)
  let displayName ← check (limits.checkDisplayName draft.displayName)
  check (limits.checkMetadata draft.metadata)
  let sameSlug ← ask (.organizations (.findBySlug draft.tenantId slug))
  require sameSlug.isNone (.slugTaken slug)
  let sameName ← ask (.organizations (.findByDisplayName draft.tenantId displayName))
  require sameName.isNone (.displayNameTaken displayName)
  let now ← now
  let id ← freshId
  let org : Organization :=
    { id := id, tenantId := draft.tenantId, slug := slug, displayName := displayName
      metadata := draft.metadata, status := .active, createdAt := now, updatedAt := now
      archivedAt := none }
  ask (.organizations (.create org))
  note ((AuditNote.within .orgCreated org.id).saying ("slug=" ++ org.slug))
  pure org

/-- The organization with an id. -/
def get (id : String) : Action (Option Organization) :=
  ask (.organizations (.findById id))

/-- The organization whose slug a text spells, within a tenant. -/
def getBySlug (limits : Limits) (tenantId : Option String) (text : String) :
    Action (Option Organization) :=
  match limits.checkSlug text with
  | .ok slug => ask (.organizations (.findBySlug tenantId slug))
  | .error _ => pure none

/-- The organizations of a tenant by display name. -/
def list (tenantId : Option String) : Action (List Organization) :=
  ask (.organizations (.list tenantId))

/-- The display name after a patch; a new one must be free in the tenant. -/
def patchedName (limits : Limits) (org : Organization) : Option String → Action String
  | none => pure org.displayName
  | some text => do
    let name ← check (limits.checkDisplayName text)
    if name = org.displayName then pure name
    else
      let holder ← ask (.organizations (.findByDisplayName org.tenantId name))
      require (holder.all (·.id == org.id)) (.displayNameTaken name)
      pure name

/-- The metadata after a patch. -/
def patchedMetadata (limits : Limits) (org : Organization) : Option Metadata → Action Metadata
  | none => pure org.metadata
  | some metadata => do
    check (limits.checkMetadata metadata)
    pure metadata

/-- What an update is noted as: archiving where the status changed to archived. -/
def updateEvent (before after : Organization) : AuditEvent :=
  if after.status ≠ before.status ∧ after.isArchived then .orgArchived else .orgUpdated

/-- Change an organization. -/
def update (limits : Limits) (id : String) (patch : Organization.Patch) :
    Action Organization := do
  let org ← loadOrganization id
  let displayName ← patchedName limits org patch.displayName
  let metadata ← patchedMetadata limits org patch.metadata
  let now ← now
  let amended := org.amend displayName metadata (patch.status.getD org.status) now
  let changed := org.changedFields amended
  if changed.isEmpty then pure org
  else
    let updated := { amended with updatedAt := now }
    ask (.organizations (.update updated))
    note ((AuditNote.within (updateEvent org updated) id).saying (",".intercalate changed))
    pure updated

/-- Archive an organization; archiving an archived one changes nothing. -/
def archive (limits : Limits) (id : String) : Action Organization :=
  update limits id .archive

end Organizations
end Tenancy
