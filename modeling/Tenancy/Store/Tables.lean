import Tenancy.Directory
import Tenancy.Store.Call

/-!
# Tenancy - A store in memory

The tables hold records in order of insertion.  Each call reads them or writes
them in one step; a write that is refused leaves them as they were.

Main definitions:

- `Tables`: the records, and how often memberships and grants were written.
- `Tables.perform`: the answer of a call and the tables after it.
-/

namespace Tenancy

/-- The contents of a store with its collaborators. -/
structure Tables where
  organizations : List Organization
  memberships : List Membership
  roles : List Role
  grants : List Grant
  invitations : List Invitation
  users : List User
  /-- Permission ids with their names. -/
  catalog : List (String × String)
  catalogAvailable : Bool
  /-- Permissions that users hold outside every organization. -/
  globalPermissions : List (String × List String)
  membershipWrites : Nat
  grantWrites : Nat
deriving DecidableEq

namespace Tables

/-- The store without records. -/
def empty : Tables where
  organizations := []
  memberships := []
  roles := []
  grants := []
  invitations := []
  users := []
  catalog := []
  catalogAvailable := true
  globalPermissions := []
  membershipWrites := 0
  grantWrites := 0

instance : Inhabited Tables := ⟨empty⟩

/-- Put a record into a list, in place of the one with the same key. -/
def put {α κ : Type} [BEq κ] (key : α → κ) (record : α) : List α → List α
  | [] => [record]
  | head :: rest =>
    if key head == key record then record :: rest else head :: put key record rest

/-! ## Organizations -/

/-- Answer a call about organizations. -/
def performOrganization (tables : Tables) :
    (call : OrganizationCall) → Except StoreError call.Answer × Tables
  | .create org =>
    if tables.organizations.any (·.id == org.id) then
      (.error (.conflict ("organization " ++ org.id ++ " exists")), tables)
    else if tables.organizations.any fun other =>
        other.tenantId == org.tenantId &&
          (other.slug == org.slug || other.displayName == org.displayName) then
      (.error (.conflict "organization slug or display name taken"), tables)
    else (.ok (), { tables with organizations := tables.organizations ++ [org] })
  | .findById id => (.ok (tables.organizations.find? (·.id == id)), tables)
  | .findBySlug tenantId slug =>
    (.ok (tables.organizations.find? fun org => org.tenantId == tenantId && org.slug == slug),
      tables)
  | .findByDisplayName tenantId name =>
    (.ok (tables.organizations.find? fun org =>
      org.tenantId == tenantId && org.displayName == name), tables)
  | .list tenantId =>
    (.ok ((tables.organizations.filter (·.tenantId == tenantId)).mergeSort fun a b =>
      a.displayName ≤ b.displayName), tables)
  | .update org =>
    if tables.organizations.any fun other =>
        other.id != org.id && other.tenantId == org.tenantId &&
          other.displayName == org.displayName then
      (.error (.conflict "organization display name taken"), tables)
    else if tables.organizations.any (·.id == org.id) then
      (.ok (), { tables with organizations := put (·.id) org tables.organizations })
    else (.error (.notFound ("organization " ++ org.id)), tables)

/-! ## Memberships -/

/-- Whether a membership is that of a user in an organization. -/
def isMemberOf (organizationId userId : String) (member : Membership) : Bool :=
  member.organizationId == organizationId && member.userId == userId

/-- The memberships after the user's other primary ones in the tenant are withdrawn. -/
def clearOthers (memberships : List Membership) (keptOrganizationId userId : String)
    (tenantId : Option String) (now : Nat) : List Membership :=
  memberships.map (Membership.withdrawPrimary keptOrganizationId userId tenantId now)

/-- The order of members in pages: by creation, then by user. -/
def memberLE (a b : Membership) : Bool :=
  a.createdAt < b.createdAt || (a.createdAt == b.createdAt && decide (a.userId ≤ b.userId))

/-- Answer a call about memberships. -/
def performMembership (tables : Tables) :
    (call : MembershipCall) → Except StoreError call.Answer × Tables
  | .find organizationId userId =>
    (.ok (tables.memberships.find? (isMemberOf organizationId userId)), tables)
  | .listForUser userId => (.ok (tables.memberships.filter (·.userId == userId)), tables)
  | .insert member clearsOthers =>
    if tables.memberships.any (isMemberOf member.organizationId member.userId) then
      (.error (.conflict "membership exists"), tables)
    else
      let others :=
        if clearsOthers then
          clearOthers tables.memberships member.organizationId member.userId member.tenantId
            member.createdAt
        else tables.memberships
      (.ok (),
        { tables with
          memberships := others ++ [member], membershipWrites := tables.membershipWrites + 1 })
  | .applyChange change =>
    match tables.memberships.find? (isMemberOf change.organizationId change.userId) with
    | none => (.error (.notFound "membership"), tables)
    | some member =>
      let others :=
        if change.clearsOthers then
          clearOthers tables.memberships change.organizationId change.userId member.tenantId
            change.updatedAt
        else tables.memberships
      let changed := member.applyChange change
      (.ok changed,
        { tables with
          memberships := put Membership.key changed others
          membershipWrites := tables.membershipWrites + 1 })
  | .query filter offset limit =>
    let matching := (tables.memberships.filter filter.accepts).mergeSort memberLE
    (.ok ((matching.drop offset).take limit, matching.length), tables)
  | .delete organizationId userId =>
    if tables.memberships.any (isMemberOf organizationId userId) then
      (.ok true,
        { tables with
          memberships := tables.memberships.filter (!isMemberOf organizationId userId ·)
          membershipWrites := tables.membershipWrites + 1 })
    else (.ok false, tables)

/-! ## Roles and grants -/

/-- Whether two roles bear the same name at the same scope. -/
def sameRoleName (a b : Role) : Bool :=
  a.tenantId == b.tenantId && a.organizationId == b.organizationId && a.name == b.name

/-- The order of roles in lists: by name, then by id. -/
def roleLE (a b : Role) : Bool :=
  a.name < b.name || (a.name == b.name && decide (a.id ≤ b.id))

/-- Whether an organization of a tenant may choose a role from a list. -/
def isListedFor (tenantId : Option String) (organizationId : String) (role : Role) : Bool :=
  match role.organizationId with
  | some owner => owner == organizationId
  | none => role.tenantId.isNone || role.tenantId == tenantId

/-- Add grants one by one; one that repeats an id or a grant refuses them all. -/
def addGrants (grants : List Grant) : List Grant → Option (List Grant)
  | [] => some grants
  | grant :: rest =>
    if grants.any fun other => other.id == grant.id || other.sameGrant grant then none
    else addGrants (grants ++ [grant]) rest

/-- Answer a call about roles. -/
def performRole (tables : Tables) : (call : RoleCall) → Except StoreError call.Answer × Tables
  | .create role =>
    if tables.roles.any (·.id == role.id) then
      (.error (.conflict ("role " ++ role.id ++ " exists")), tables)
    else if tables.roles.any (sameRoleName · role) then
      (.error (.conflict "role name taken in scope"), tables)
    else (.ok (), { tables with roles := tables.roles ++ [role] })
  | .find roleId => (.ok (tables.roles.find? (·.id == roleId)), tables)
  | .findMany roleIds =>
    (.ok (roleIds.filterMap fun roleId => tables.roles.find? (·.id == roleId)), tables)
  | .findByName tenantId organizationId name =>
    (.ok (tables.roles.find? fun role =>
      role.tenantId == tenantId && role.organizationId == organizationId && role.name == name),
      tables)
  | .list tenantId organizationId =>
    (.ok ((tables.roles.filter fun role =>
      role.tenantId == tenantId && role.organizationId == organizationId).mergeSort roleLE),
      tables)
  | .listAssignable tenantId organizationId =>
    (.ok ((tables.roles.filter (isListedFor tenantId organizationId)).mergeSort roleLE), tables)
  | .update role =>
    if tables.roles.any fun other => other.id != role.id && sameRoleName other role then
      (.error (.conflict "role name taken in scope"), tables)
    else if tables.roles.any (·.id == role.id) then
      (.ok (), { tables with roles := put (·.id) role tables.roles })
    else (.error (.notFound ("role " ++ role.id)), tables)
  | .delete roleId =>
    (.ok (tables.roles.any (·.id == roleId)),
      { tables with
        roles := tables.roles.filter (·.id != roleId)
        grants := tables.grants.filter (·.roleId != roleId) })
  | .grantsOf roleIds => (.ok (tables.grants.filter (roleIds.contains ·.roleId)), tables)
  | .changeGrants added removedIds =>
    match addGrants (tables.grants.filter (!removedIds.contains ·.id)) added with
    | none => (.error (.conflict "role permission already granted at this scope"), tables)
    | some grants =>
      (.ok (), { tables with grants := grants, grantWrites := tables.grantWrites + 1 })

/-! ## Invitations -/

/-- The order of invitations in lists: newest first, then by address. -/
def invitationLE (a b : Invitation) : Bool :=
  b.createdAt < a.createdAt || (a.createdAt == b.createdAt && decide (a.email ≤ b.email))

/-- Answer a call about invitations. -/
def performInvitation (tables : Tables) :
    (call : InvitationCall) → Except StoreError call.Answer × Tables
  | .create invitation =>
    if tables.invitations.any fun other =>
        other.code == invitation.code ||
          (other.organizationId == invitation.organizationId &&
            other.email == invitation.email) then
      (.error (.conflict "invitation exists"), tables)
    else (.ok (), { tables with invitations := tables.invitations ++ [invitation] })
  | .findByCode code => (.ok (tables.invitations.find? (·.code == code)), tables)
  | .findForEmail organizationId email =>
    (.ok (tables.invitations.find? fun invitation =>
      invitation.organizationId == organizationId && invitation.email == email), tables)
  | .listForOrganization organizationId =>
    (.ok ((tables.invitations.filter (·.organizationId == organizationId)).mergeSort
      invitationLE), tables)
  | .delete code =>
    (.ok (tables.invitations.any (·.code == code)),
      { tables with invitations := tables.invitations.filter (·.code != code) })
  | .deleteExpired now =>
    (.ok (tables.invitations.countP (·.isExpiredAt now)),
      { tables with invitations := tables.invitations.filter (!·.isExpiredAt now) })

/-! ## Collaborators -/

/-- Answer a call to the directory. -/
def performDirectory (tables : Tables) :
    (call : DirectoryCall) → Except StoreError call.Answer × Tables
  | .searchUserIds pattern =>
    (.ok (((tables.users.filter (·.foundBy pattern)).map (·.id)).mergeSort fun a b => a ≤ b),
      tables)

/-- The names of the known ids among a list. -/
def namesForIds (catalog : List (String × String)) (ids : List String) :
    List (String × String) :=
  ids.filterMap fun id => (catalog.lookup id).map fun name => (id, name)

/-- The ids of the known names among a list, under their lowercase names. -/
def idsForNames (catalog : List (String × String)) (names : List String) :
    List (String × String) :=
  let wanted := names.map Text.lowercase
  catalog.filterMap fun entry =>
    let key := Text.lowercase entry.2
    if wanted.contains key then some (key, entry.1) else none

/-- Answer a call to the catalog, if it is available. -/
def performCatalog (tables : Tables) :
    (call : CatalogCall) → Except StoreError call.Answer × Tables := fun call =>
  if tables.catalogAvailable then
    match call with
    | .namesForIds ids => (.ok (namesForIds tables.catalog ids), tables)
    | .idsForNames names => (.ok (idsForNames tables.catalog names), tables)
    | .userPermissions userId _ =>
      (.ok ((tables.globalPermissions.lookup userId).getD []), tables)
  else (.error (.unavailable "permission catalog offline"), tables)

/-! ## All calls -/

/-- Answer a call and return the tables after it. -/
def perform (tables : Tables) : (call : Call) → Except StoreError call.Answer × Tables
  | .organizations call => tables.performOrganization call
  | .memberships call => tables.performMembership call
  | .roles call => tables.performRole call
  | .invitations call => tables.performInvitation call
  | .directory call => tables.performDirectory call
  | .catalog call => tables.performCatalog call

end Tables
end Tenancy
