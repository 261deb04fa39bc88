import Tenancy.Error
import Tenancy.Invitation
import Tenancy.Membership
import Tenancy.Permission
import Tenancy.Text.SearchPattern

/-!
# Tenancy - Calls to a store

Everything that operations ask of storage and of the two collaborators, the user
directory and the permission catalog.  A call is one atomic step; its answer is
given by its kind.

Main definitions:

- `OrganizationCall`, `MembershipCall`, `RoleCall`, `InvitationCall`: calls to storage.
- `DirectoryCall`, `CatalogCall`: calls to the collaborators.
- `Call`, `Call.Answer`: all of them, with the type of each answer.
- `Call.name`: the name of each kind of call.
- `Call.silence?`: the answer that stands for "nothing there, nothing done".
-/

namespace Tenancy

/-- Calls about organizations. -/
inductive OrganizationCall
  | create (org : Organization)
  | findById (id : String)
  | findBySlug (tenantId : Option String) (slug : String)
  | findByDisplayName (tenantId : Option String) (name : String)
  | list (tenantId : Option String)
  | update (org : Organization)

/-- What each call about organizations answers. -/
@[reducible]
def OrganizationCall.Answer : OrganizationCall → Type
  | .create _ => Unit
  | .findById _ => Option Organization
  | .findBySlug _ _ => Option Organization
  | .findByDisplayName _ _ => Option Organization
  | .list _ => List Organization
  | .update _ => Unit

/-- Calls about memberships. -/
inductive MembershipCall
  | find (organizationId userId : String)
  | listForUser (userId : String)
  | insert (member : Membership) (clearsOthers : Bool)
  | applyChange (change : Membership.Change)
  | query (filter : MemberFilter) (offset limit : Nat)
  | delete (organizationId userId : String)
deriving DecidableEq

/-- What each call about memberships answers; a query adds the number of all that pass. -/
@[reducible]
def MembershipCall.Answer : MembershipCall → Type
  | .find _ _ => Option Membership
  | .listForUser _ => List Membership
  | .insert _ _ => Unit
  | .applyChange _ => Membership
  | .query _ _ _ => List Membership × Nat
  | .delete _ _ => Bool

/-- Calls about roles and their grants. -/
inductive RoleCall
  | create (role : Role)
  | find (roleId : String)
  | findMany (roleIds : List String)
  | findByName (tenantId organizationId : Option String) (name : String)
  | list (tenantId organizationId : Option String)
  | listAssignable (tenantId : Option String) (organizationId : String)
  | update (role : Role)
  | delete (roleId : String)
  | grantsOf (roleIds : List String)
  | changeGrants (added : List Grant) (removedIds : List String)

/-- What each call about roles answers. -/
@[reducible]
def RoleCall.Answer : RoleCall → Type
  | .create _ => Unit
  | .find _ => Option Role
  | .findMany _ => List Role
  | .findByName _ _ _ => Option Role
  | .list _ _ => List Role
  | .listAssignable _ _ => List Role
  | .update _ => Unit
  | .delete _ => Bool
  | .grantsOf _ => List Grant
  | .changeGrants _ _ => Unit

/-- Calls about invitations. -/
inductive InvitationCall
  | create (invitation : Invitation)
  | findByCode (code : String)
  | findForEmail (organizationId email : String)
  | listForOrganization (organizationId : String)
  | delete (code : String)
  | deleteExpired (now : Nat)

/-- What each call about invitations answers. -/
@[reducible]
def InvitationCall.Answer : InvitationCall → Type
  | .create _ => Unit
  | .findByCode _ => Option Invitation
  | .findForEmail _ _ => Option Invitation
  | .listForOrganization _ => List Invitation
  | .delete _ => Bool
  | .deleteExpired _ => Nat

/-- Calls to the user directory. -/
inductive DirectoryCall
  | searchUserIds (pattern : Text.SearchPattern)

/-- What each call to the directory answers. -/
@[reducible]
def DirectoryCall.Answer : DirectoryCall → Type
  | .searchUserIds _ => List String

/-- Calls to the permission catalog. -/
inductive CatalogCall
  /-- The names of the known ids, as pairs of id and name. -/
  | namesForIds (ids : List String)
  /-- The ids of the known names, as pairs of lowercase name and id. -/
  | idsForNames (names : List String)
  | userPermissions (userId : String) (tenantId : Option String)

/-- What each call to the catalog answers. -/
@[reducible]
def CatalogCall.Answer : CatalogCall → Type
  | .namesForIds _ => List (String × String)
  | .idsForNames _ => List (String × String)
  | .userPermissions _ _ => List String

/-- A call to a store or collaborator. -/
inductive Call
  | organizations (call : OrganizationCall)
  | memberships (call : MembershipCall)
  | roles (call : RoleCall)
  | invitations (call : InvitationCall)
  | directory (call : DirectoryCall)
  | catalog (call : CatalogCall)

/-- What each call answers. -/
@[reducible]
def Call.Answer : Call → Type
  | .organizations call => call.Answer
  | .memberships call => call.Answer
  | .roles call => call.Answer
  | .invitations call => call.Answer
  | .directory call => call.Answer
  | .catalog call => call.Answer

/-! ## Names -/

/-- The name of a call about organizations. -/
def OrganizationCall.name : OrganizationCall → String
  | .create _ => "org.create"
  | .findById _ => "org.find_by_id"
  | .findBySlug _ _ => "org.find_by_slug"
  | .findByDisplayName _ _ => "org.find_by_display_name"
  | .list _ => "org.list"
  | .update _ => "org.update"

/-- The name of a call about memberships. -/
def MembershipCall.name : MembershipCall → String
  | .find _ _ => "membership.find"
  | .listForUser _ => "membership.list_for_user"
  | .insert _ _ => "membership.insert"
  | .applyChange _ => "membership.apply_changes"
  | .query _ _ _ => "membership.query"
  | .delete _ _ => "membership.delete"

/-- The name of a call about roles. -/
def RoleCall.name : RoleCall → String
  | .create _ => "role.create"
  | .find _ => "role.find"
  | .findMany _ => "role.find_many"
  | .findByName _ _ _ => "role.find_by_name"
  | .list _ _ => "role.list"
  | .listAssignable _ _ => "role.list_assignable"
  | .update _ => "role.update"
  | .delete _ => "role.delete"
  | .grantsOf _ => "role.permissions_for_roles"
  | .changeGrants _ _ => "role.apply_permission_changes"

/-- The name of a call about invitations. -/
def InvitationCall.name : InvitationCall → String
  | .create _ => "invitation.create"
  | .findByCode _ => "invitation.find_by_code"
  | .findForEmail _ _ => "invitation.find_for_email"
  | .listForOrganization _ => "invitation.list_for_org"
  | .delete _ => "invitation.delete"
  | .deleteExpired _ => "invitation.delete_expired"

/-- The name of a call to the directory. -/
def DirectoryCall.name : DirectoryCall → String
  | .searchUserIds _ => "directory.search_user_ids"

/-- The name of a call to the catalog. -/
def CatalogCall.name : CatalogCall → String
  | .namesForIds _ => "catalog.names_for_ids"
  | .idsForNames _ => "catalog.ids_for_names"
  | .userPermissions _ _ => "catalog.user_permissions"

/-- The name of a call, by which fault plans refer to it. -/
def Call.name : Call → String
  | .organizations call => call.name
  | .memberships call => call.name
  | .roles call => call.name
  | .invitations call => call.name
  | .directory call => call.name
  | .catalog call => call.name

/-! ## Silent answers -/

/-- The empty answer about organizations. -/
def OrganizationCall.silence : (call : OrganizationCall) → call.Answer
  | .create _ => ()
  | .findById _ => none
  | .findBySlug _ _ => none
  | .findByDisplayName _ _ => none
  | .list _ => []
  | .update _ => ()

/-- The empty answer about memberships; a change has none, since it answers with the result. -/
def MembershipCall.silence? : (call : MembershipCall) → Option call.Answer
  | .find _ _ => some none
  | .listForUser _ => some []
  | .insert _ _ => some ()
  | .applyChange _ => none
  | .query _ _ _ => some ([], 0)
  | .delete _ _ => some false

/-- The empty answer about roles. -/
def RoleCall.silence : (call : RoleCall) → call.Answer
  | .create _ => ()
  | .find _ => none
  | .findMany _ => []
  | .findByName _ _ _ => none
  | .list _ _ => []
  | .listAssignable _ _ => []
  | .update _ => ()
  | .delete _ => false
  | .grantsOf _ => []
  | .changeGrants _ _ => ()

/-- The empty answer about invitations. -/
def InvitationCall.silence : (call : InvitationCall) → call.Answer
  | .create _ => ()
  | .findByCode _ => none
  | .findForEmail _ _ => none
  | .listForOrganization _ => []
  | .delete _ => false
  | .deleteExpired _ => 0

/-- The empty answer of the directory. -/
def DirectoryCall.silence : (call : DirectoryCall) → call.Answer
  | .searchUserIds _ => []

/-- The empty answer of the catalog. -/
def CatalogCall.silence : (call : CatalogCall) → call.Answer
  | .namesForIds _ => []
  | .idsForNames _ => []
  | .userPermissions _ _ => []

/-- The answer for "nothing there, nothing done", where a call has one. -/
def Call.silence? : (call : Call) → Option call.Answer
  | .organizations call => some call.silence
  | .memberships call => call.silence?
  | .roles call => some call.silence
  | .invitations call => some call.silence
  | .directory call => some call.silence
  | .catalog call => some call.silence

/-! ## Faults -/

/-- How a call can go wrong before it reaches the store. -/
inductive Fault
  | fails (error : StoreError)
  /-- The call answers as if there were nothing there and nothing to do. -/
  | silent

/-- What a faulty call answers; `none` lets the call through. -/
def Fault.reply? (fault : Fault) (call : Call) : Option (Except StoreError call.Answer) :=
  match fault with
  | .fails error => some (.error error)
  | .silent => call.silence?.map .ok

end Tenancy
