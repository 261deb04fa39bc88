import Tenancy.Sql.Rows
import Tenancy.Store.Call

/-!
# Tenancy - A store in a relational database

Each storage call is one statement, or one transaction of several.  A call about
an empty list of ids asks the database nothing.

Main definitions:

- `Sql.performOrganization`, `Sql.performMembership`, `Sql.performRole`,
  `Sql.performInvitation`: the session for each call.
- `AuditCall`, `Sql.performAudit`: the same for the audit log.
-/

namespace Tenancy

/-- Calls about the audit log. -/
inductive AuditCall
  | record (entry : AuditEntry)
  | ofOrganization (organizationId : String) (limit : Nat)
  | ofActor (actorId : String) (limit : Nat)

/-- What each call about the audit log answers. -/
@[reducible]
def AuditCall.Answer : AuditCall → Type
  | .record _ => Unit
  | .ofOrganization _ _ => List AuditEntry
  | .ofActor _ _ => List AuditEntry

namespace Sql

open Session

/-! ## Reading rows -/

/-- Every row of a selection, read. -/
def fetchAll {α : Type} (read : Row → Except StoreError α) (selection : Selection) :
    Session (List α) := do
  let rows ← query (.select selection)
  check (rows.mapM read)

/-- The first row of a selection, read, if there is one. -/
def fetchFirst {α : Type} (read : Row → Except StoreError α) (selection : Selection) :
    Session (Option α) := do
  let rows ← query (.select selection.first)
  match rows with
  | [] => pure none
  | row :: _ => do
    let value ← check (read row)
    pure (some value)

/-- How many rows a selection has. -/
def fetchCount (selection : Selection) : Session Nat := do
  let rows ← query (.count selection)
  match rows with
  | [] => pure 0
  | row :: _ => check (row.cell countOf? "num_items")
where
  /-- A count is a word of 64 bits. -/
  countOf? : Value → Option Nat
    | .int number => some (number % (maxWord64 + 1 : Nat)).toNat
    | _ => none

/-- The condition that a column equals a text. -/
def textIs (column value : String) : Condition :=
  .equals column (.text value)

/-- The condition that a column is one of several texts. -/
def textIn (column : String) (values : List String) : Condition :=
  .oneOf column (values.map .text)

/-! ## Organizations -/

/-- The columns of an organization that an update sets. -/
def organizationSettings (org : Organization) : List (String × Value) :=
  (Table.organizations.row org.cells).filter fun cell =>
    cell.1 != "id" && cell.1 != "created_at"

/-- The session for a call about organizations. -/
def performOrganization : (call : OrganizationCall) → Session call.Answer
  | .create org => insert Table.organizations [org.cells]
  | .findById id => fetchFirst Organization.ofRow (Table.organizations.select [textIs "id" id])
  | .findBySlug tenantId slug =>
    fetchFirst Organization.ofRow
      (Table.organizations.select [.scope "tenant_id" tenantId, textIs "slug" slug])
  | .findByDisplayName tenantId name =>
    fetchFirst Organization.ofRow
      (Table.organizations.select [.scope "tenant_id" tenantId, textIs "display_name" name])
  | .list tenantId =>
    fetchAll Organization.ofRow
      ((Table.organizations.select [.scope "tenant_id" tenantId]).orderedBy
        [("display_name", .ascending)])
  | .update org => do
    let touched ← execute
      (.update Table.organizations (organizationSettings org) [textIs "id" org.id])
    if touched = 0 then throw (.notFound ("organization " ++ org.id)) else pure ()

/-! ## Memberships -/

/-- The conditions for the rows of one membership. -/
def memberIs (organizationId userId : String) : List Condition :=
  [textIs "org_id" organizationId, textIs "user_id" userId]

/-- The role assignments that satisfy conditions, oldest first. -/
def fetchAssignments (conditions : List Condition) : Session (List RoleAssignment) :=
  fetchAll RoleAssignment.ofRow
    ((Table.assignments.select conditions).orderedBy [("created_at", .ascending)])

/-- A membership without its roles. -/
def fetchMember (organizationId userId : String) : Session (Option Membership) :=
  fetchFirst Membership.ofRow (Table.memberships.select (memberIs organizationId userId))

/-- A membership with its roles. -/
def loadMembership (organizationId userId : String) : Session (Option Membership) := do
  match ← fetchMember organizationId userId with
  | none => pure none
  | some member => do
    let assignments ← fetchAssignments (memberIs organizationId userId)
    pure (some { member with roles := assignments })

/--
The user's memberships in a tenant, locked.  They are ordered by organization so
that all who lock them agree on the order.
-/
def lockedMemberships (userId : String) (tenantId : Option String) : Selection :=
  { (Table.memberships.select [textIs "user_id" userId, .scope "tenant_id" tenantId]).orderedBy
      [("org_id", .ascending)] with
    locks := true }

/-- Withdraw the primary flag from the user's other memberships in a tenant, under their locks. -/
def clearOthers (keptOrganizationId userId : String) (tenantId : Option String) (now : Nat) :
    Session Unit := do
  let _ ← fetchAll Membership.ofRow (lockedMemberships userId tenantId)
  let _ ← execute
    (.update Table.memberships [("is_primary", .bool false), ("updated_at", .time now)]
      [textIs "user_id" userId, .differs "org_id" (.text keptOrganizationId),
        .scope "tenant_id" tenantId, .equals "is_primary" (.bool true)])
  pure ()

/-- Insert role assignments, if there are any. -/
def insertAssignments (assignments : List RoleAssignment) : Session Unit :=
  if assignments.isEmpty then pure ()
  else insert Table.assignments (assignments.map (·.cells))

/-- Fail unless a membership was found. -/
def demandMember : Option Membership → Session Membership
  | some member => pure member
  | none => throw (.notFound "membership")

/-- The writes of a new membership. -/
def insertMember (member : Membership) (clears : Bool) : Session Unit := do
  if clears then
    clearOthers member.organizationId member.userId member.tenantId member.createdAt
  else pure ()
  insert Table.memberships [member.cells]
  insertAssignments member.roles

/-- The columns of a membership that a delta sets. -/
def changeSettings (change : Membership.Change) : List (String × Value) :=
  match change.isPrimary with
  | some isPrimary => [("is_primary", .bool isPrimary), ("updated_at", .time change.updatedAt)]
  | none => [("updated_at", .time change.updatedAt)]

/-- Delete the assignments that a delta removes, if there are any. -/
def deleteAssignments (organizationId userId : String) (roleIds : List String) : Session Unit :=
  if roleIds.isEmpty then pure ()
  else do
    let _ ← execute
      (.delete Table.assignments (memberIs organizationId userId ++ [textIn "role_id" roleIds]))
    pure ()

/-- The reads and writes of a delta. -/
def applyChange (change : Membership.Change) : Session Membership := do
  let existing ← demandMember (← fetchMember change.organizationId change.userId)
  if change.clearsOthers then
    clearOthers change.organizationId change.userId existing.tenantId change.updatedAt
  else pure ()
  let _ ← execute
    (.update Table.memberships (changeSettings change)
      (memberIs change.organizationId change.userId))
  deleteAssignments change.organizationId change.userId change.removedRoleIds
  insertAssignments change.added
  demandMember (← loadMembership change.organizationId change.userId)

/-- The selection of the members that pass a filter. -/
def filtered (filter : MemberFilter) : Selection :=
  Table.memberships.select
    ([textIs "org_id" filter.organizationId] ++
      (filter.isPrimary.map fun isPrimary =>
        Condition.equals "is_primary" (.bool isPrimary)).toList ++
      (filter.roleId.map fun roleId =>
        Condition.among "user_id" Table.assignments "user_id"
          [("org_id", .text filter.organizationId), ("role_id", .text roleId)]).toList ++
      (filter.userIds.map (textIn "user_id")).toList)

/-- One page of the members that pass a filter, and how many pass. -/
def queryMembers (filter : MemberFilter) (offset limit : Nat) :
    Session (List Membership × Nat) := do
  let total ← fetchCount (filtered filter)
  if total = 0 then pure ([], 0)
  else
    let page :=
      (filtered filter).orderedBy [("created_at", .ascending), ("user_id", .ascending)]
    let members ← fetchAll Membership.ofRow
      { page with limit := some limit, offset := some offset }
    if members.isEmpty then pure ([], total)
    else
      let assignments ← fetchAssignments
        [textIs "org_id" filter.organizationId, textIn "user_id" (members.map (·.userId))]
      pure (assemble assignments members, total)

/-- The memberships of a user. -/
def listForUser (userId : String) : Session (List Membership) := do
  let members ← fetchAll Membership.ofRow (Table.memberships.select [textIs "user_id" userId])
  if members.isEmpty then pure []
  else
    let assignments ← fetchAssignments [textIs "user_id" userId]
    pure (assemble assignments members)

/-- The writes of a removal; whether a membership was there. -/
def deleteMember (organizationId userId : String) : Session Bool := do
  let _ ← execute (.delete Table.assignments (memberIs organizationId userId))
  let touched ← execute (.delete Table.memberships (memberIs organizationId userId))
  pure (decide (0 < touched))

/-- The session for a call about memberships. -/
def performMembership : (call : MembershipCall) → Session call.Answer
  | .find organizationId userId => loadMembership organizationId userId
  | .listForUser userId => listForUser userId
  | .insert member clears => transaction (insertMember member clears)
  | .applyChange change => transaction (applyChange change)
  | .query filter offset limit => queryMembers filter offset limit
  | .delete organizationId userId => transaction (deleteMember organizationId userId)

/-! ## Roles -/

/-- The condition that a column is null or names a tenant. -/
def visibleToTenant (tenantId : Option String) : Condition :=
  .any (.isNull "tenant_id" :: (tenantId.map (textIs "tenant_id")).toList)

/-- The roles that an organization may choose from. -/
def assignableRoles (tenantId : Option String) (organizationId : String) : Selection :=
  (Table.roles.select
    [.any [textIs "org_id" organizationId,
      .all [.isNull "org_id", visibleToTenant tenantId]]]).orderedBy [("name", .ascending)]

/-- The writes of a deleted role; whether the role was there. -/
def deleteRole (roleId : String) : Session Bool := do
  let _ ← execute (.delete Table.grants [textIs "role_id" roleId])
  let touched ← execute (.delete Table.roles [textIs "id" roleId])
  pure (decide (0 < touched))

/-- The writes of a change of grants. -/
def changeGrants (added : List Grant) (removedIds : List String) : Session Unit := do
  if removedIds.isEmpty then pure ()
  else
    let _ ← execute (.delete Table.grants [textIn "id" removedIds])
    pure ()
  if added.isEmpty then pure () else insert Table.grants (added.map (·.cells))

/-- The session for a call about roles. -/
def performRole : (call : RoleCall) → Session call.Answer
  | .create role => insert Table.roles [role.cells]
  | .find roleId => fetchFirst Role.ofRow (Table.roles.select [textIs "id" roleId])
  | .findMany roleIds =>
    if roleIds.isEmpty then pure []
    else fetchAll Role.ofRow (Table.roles.select [textIn "id" roleIds])
  | .findByName tenantId organizationId name =>
    fetchFirst Role.ofRow
      (Table.roles.select
        [.scope "tenant_id" tenantId, .scope "org_id" organizationId, textIs "name" name])
  | .list tenantId organizationId =>
    fetchAll Role.ofRow
      ((Table.roles.select
        [.scope "tenant_id" tenantId, .scope "org_id" organizationId]).orderedBy
          [("name", .ascending)])
  | .listAssignable tenantId organizationId =>
    fetchAll Role.ofRow (assignableRoles tenantId organizationId)
  | .update role => do
    let touched ← execute
      (.update Table.roles
        [("name", .text role.name), ("description", .option .text role.description),
          ("updated_at", .time role.updatedAt)] [textIs "id" role.id])
    if touched = 0 then throw (.notFound ("role " ++ role.id)) else pure ()
  | .delete roleId => transaction (deleteRole roleId)
  | .grantsOf roleIds =>
    if roleIds.isEmpty then pure []
    else fetchAll Grant.ofRow (Table.grants.select [textIn "role_id" roleIds])
  | .changeGrants added removedIds => transaction (changeGrants added removedIds)

/-! ## Invitations -/

/-- The session for a call about invitations. -/
def performInvitation : (call : InvitationCall) → Session call.Answer
  | .create invitation => insert Table.invitations [invitation.cells]
  | .findByCode code =>
    fetchFirst Invitation.ofRow (Table.invitations.select [textIs "code" code])
  | .findForEmail organizationId email =>
    fetchFirst Invitation.ofRow
      (Table.invitations.select [textIs "org_id" organizationId, textIs "email" email])
  | .listForOrganization organizationId =>
    fetchAll Invitation.ofRow
      ((Table.invitations.select [textIs "org_id" organizationId]).orderedBy
        [("created_at", .descending), ("email", .ascending)])
  | .delete code => do
    let touched ← execute (.delete Table.invitations [textIs "code" code])
    pure (decide (0 < touched))
  | .deleteExpired now =>
    execute (.delete Table.invitations [.atMost "expires_at" (.time now)])

/-! ## Audit log -/

/-- The newest audit entries that satisfy a condition. -/
def newestEntries (condition : Condition) (limit : Nat) : Selection :=
  { (Table.audit.select [condition]).orderedBy [("timestamp", .descending)] with
    limit := some limit }

/-- The session for a call about the audit log. -/
def performAudit : (call : AuditCall) → Session call.Answer
  | .record entry => insert Table.audit [entry.cells]
  | .ofOrganization organizationId limit =>
    fetchAll AuditEntry.ofRow (newestEntries (textIs "org_id" organizationId) limit)
  | .ofActor actorId limit =>
    fetchAll AuditEntry.ofRow (newestEntries (textIs "actor_id" actorId) limit)

end Sql
end Tenancy
