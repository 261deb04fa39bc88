import Tenancy.Proofs.LedgerOperations
import Tenancy.Proofs.OrderlyRuns
import Tenancy.Proofs.SoloRuns

/-!
# Tenancy - Two views of what is granted

What a member may do can be read in two ways: by resolving the member's
permissions, and by looking at each assigned role from the organization.  The
first filters grants by what the membership sees, the second sorts them into
explicit and inherited ones by where the role is defined.  The two agree because
memberships and grants agree with the ledger.

Main definitions:

- `Permission.Names`: the lowercase name that a catalog gives an id.
- `Tables.heldIds`, `Tables.grantedIds`: the ids in each view.
- `Tables.resolved`, `Tables.granted`: the names in each view.

Main results:

- Theorem `Resolution.runIn_inOrganization`, `Roles.runIn_permissions`: what the two
  operations return.
- Theorem `Ledger.Describes.mem_heldIds`: the two views have the same ids.
- Theorem `resolved_eq_union_of_roles`: in every reachable world the two views have
  the same names.
-/

namespace Tenancy

/-! ## Names of ids -/

namespace Permission

/-- The catalog gives an id a name whose trimmed lowercase form is `name`, which is not blank. -/
def Names (catalog : List (String × String)) (id name : String) : Prop :=
  ∃ spelled, catalog.lookup id = some spelled ∧ Text.trim spelled ≠ "" ∧
    Text.lowercase (Text.trim spelled) = name

/-- Up to case, the normalized names of ids are the names that the catalog gives them. -/
theorem mem_lowercase_normalize_namesOf {catalog : List (String × String)} {ids : List String}
    {name : String} :
    name ∈ (normalize (namesOf catalog ids)).map Text.lowercase ↔
      ∃ id ∈ ids, Names catalog id name := by
  rw [mem_lowercase_normalize]
  simp only [Text.trimmedTexts, namesOf, Names, List.mem_map, List.mem_filter, List.mem_filterMap,
    bne_iff_ne, ne_eq]
  constructor
  · rintro ⟨_, ⟨⟨spelled, ⟨id, hid, hlookup⟩, rfl⟩, hne⟩, rfl⟩
    exact ⟨id, hid, spelled, hlookup, hne, rfl⟩
  · rintro ⟨id, hid, spelled, hlookup, hne, rfl⟩
    exact ⟨_, ⟨⟨spelled, ⟨id, hid, hlookup⟩, rfl⟩, hne⟩, rfl⟩

end Permission

namespace Tables

/-- The catalog answers a lookup of the ids it was asked for as it would by itself. -/
theorem lookup_namesForIds {catalog : List (String × String)} {ids : List String} {id : String}
    (hmem : id ∈ ids) : (namesForIds catalog ids).lookup id = catalog.lookup id := by
  have hlookup : ∀ ids : List String, (namesForIds catalog ids).lookup id =
      if id ∈ ids then catalog.lookup id else none := by
    intro ids
    induction ids with
    | nil => rfl
    | cons head rest ih =>
        unfold namesForIds at ih ⊢
        by_cases hsame : id = head
        · cases hname : catalog.lookup head with
          | none => simp [hsame, hname] at ih ⊢; exact ih
          | some name => simp [hsame, hname]
        · cases hname : catalog.lookup head with
          | none => simp [hsame, hname, ih]
          | some name =>
              have hne : (id == head) = false := by simpa using hsame
              simp [hsame, hname, ih, List.lookup_cons, hne]
  rw [hlookup, if_pos hmem]

/-- Names are found for the ids that were asked for. -/
theorem namesOf_namesForIds {catalog : List (String × String)} {ids wanted : List String}
    (hsub : ∀ id ∈ wanted, id ∈ ids) :
    Permission.namesOf (namesForIds catalog ids) wanted = Permission.namesOf catalog wanted :=
  List.filterMap_congr fun id hid => lookup_namesForIds (hsub id hid)

/-- The assigned roles of a membership that exist. -/
def liveRoleIds (tables : Tables) (member : Membership) : List String :=
  ((Text.distinctTrimmed member.roleIds).filterMap fun roleId =>
    tables.roles.find? (·.id == roleId)).map (·.id)

/-- The ids of the permissions that a member holds in an organization. -/
def heldIds (tables : Tables) (organizationId : String) (member : Membership) : List String :=
  let live := tables.liveRoleIds member
  Text.distinctTrimmed (Grant.visibleToMember
    (tables.grants.filter (live.contains ·.roleId)) live organizationId member.tenantId)

/-- The grants of a role as seen from an organization. -/
def grantedSplit (tables : Tables) (role : Role) (org : Organization) : Grant.Split :=
  Grant.splitByScope (tables.grants.filter ([role.id].contains ·.roleId)) role (some org.id)
    org.tenantId

/-- The ids of the permissions that a role grants in an organization. -/
def grantedIds (tables : Tables) (role : Role) (org : Organization) : List String :=
  (tables.grantedSplit role org).baseline ++ (tables.grantedSplit role org).explicit

/-- What the role of an id grants in an organization; nothing if there is no such role. -/
def granted (tables : Tables) (org : Organization) (roleId : String) : RolePermissions :=
  match tables.roles.find? (·.id == roleId) with
  | none => { effective := [], explicit := [] }
  | some role =>
    Permission.merge
      (Permission.namesOf tables.catalog (tables.grantedSplit role org).baseline)
      (Permission.namesOf tables.catalog (tables.grantedSplit role org).explicit)

/-- Up to case, the names that a stored role grants are those of the ids that it grants. -/
theorem mem_lowercase_granted {tables : Tables} {org : Organization} {roleId : String} {role : Role}
    (hrole : tables.roles.find? (·.id == roleId) = some role) {name : String} :
    name ∈ (tables.granted org roleId).effective.map Text.lowercase ↔
      ∃ id ∈ tables.grantedIds role org, Permission.Names tables.catalog id name := by
  have heffective : (tables.granted org roleId).effective =
      Permission.normalize (Permission.namesOf tables.catalog (tables.grantedIds role org)) := by
    simp [granted, hrole, Permission.merge, Permission.namesOf, grantedIds]
  rw [heffective, Permission.mem_lowercase_normalize_namesOf]

/-- A role that is stored can be found. -/
theorem find_role_of_stored {tables : Tables} {roleId : String}
    (hstored : ∃ role ∈ tables.roles, role.id = roleId) :
    ∃ role, tables.roles.find? (·.id == roleId) = some role := by
  obtain ⟨role, hrole, hid⟩ := hstored
  rw [← Option.isSome_iff_exists, List.find?_isSome]
  exact ⟨role, hrole, by simpa using hid⟩

/-- A role that is found is stored. -/
theorem stored_of_find_role {tables : Tables} {roleId : String} {role : Role}
    (hfind : tables.roles.find? (·.id == roleId) = some role) :
    ∃ role ∈ tables.roles, role.id = roleId :=
  ⟨role, List.mem_of_find?_eq_some hfind, Tables.key_of_find hfind⟩

end Tables

/-! ## What the two operations return -/

/-- An available catalog answers. -/
theorem Tables.perform_namesForIds {tables : Tables} (havailable : tables.catalogAvailable = true)
    (ids : List String) :
    (tables.perform (.catalog (.namesForIds ids))).1 =
      .ok (Tables.namesForIds tables.catalog ids) := by
  simp [Tables.perform, Tables.performCatalog, havailable]

/-- The names that ids are resolved to: none if the catalog is not available. -/
def Tables.resolvedNames (tables : Tables) (ids : List String) : List String :=
  if tables.catalogAvailable then
    Permission.normalize (Permission.namesOf tables.catalog ids)
  else []

/-- Resolving ids returns their names. -/
theorem Resolution.runIn_namesOf (world : World) (ids : List String) :
    (Resolution.namesOf ids).runIn world = (.ok (world.tables.resolvedNames ids), world) := by
  refine (Action.runIn_bind_ok (Action.runIn_attempt _ rfl) _).trans ?_
  cases havailable : world.tables.catalogAvailable with
  | false => simp [Tables.perform, Tables.performCatalog, Tables.resolvedNames, havailable]
  | true => simp [Tables.perform_namesForIds havailable, Tables.resolvedNames, havailable,
      Tables.namesOf_namesForIds]

/-- Without ids, nothing is resolved. -/
theorem Tables.resolvedNames_nil (tables : Tables) : tables.resolvedNames [] = [] := by
  simp [resolvedNames, Permission.normalize, Permission.namesOf, Text.trimmedTexts, Text.keepFirst]

/-- Without live roles, nothing is held. -/
theorem Tables.heldIds_eq_nil {tables : Tables} {organizationId : String} {member : Membership}
    (hnone : tables.liveRoleIds member = []) : tables.heldIds organizationId member = [] := by
  simp [heldIds, hnone, Grant.visibleToMember, Text.distinctTrimmed, Text.trimmedTexts,
    Text.keepFirst]

/-- Resolving the permissions of a member returns the names of the held ids. -/
theorem Resolution.runIn_ofMember (world : World) (organizationId : String) (member : Membership) :
    (Resolution.ofMember organizationId member).runIn world =
      (.ok (world.tables.resolvedNames (world.tables.heldIds organizationId member)), world) := by
  unfold Resolution.ofMember
  dsimp only
  split
  · rename_i hempty
    have hnone : world.tables.liveRoleIds member = [] := by
      simp [Tables.liveRoleIds, List.isEmpty_iff.1 hempty]
    rw [Tables.heldIds_eq_nil hnone, Tables.resolvedNames_nil, Action.runIn_pure]
  · have hroles : (Action.ask (.roles (.findMany (Text.distinctTrimmed member.roleIds)))).runIn
        world = (.ok ((Text.distinctTrimmed member.roleIds).filterMap fun roleId =>
          world.tables.roles.find? (·.id == roleId)), world) := Action.runIn_read rfl rfl
    refine (Action.runIn_bind_ok hroles _).trans ?_
    change (if (world.tables.liveRoleIds member).isEmpty then _ else _ : Action _).runIn world = _
    split
    · rename_i hempty
      rw [Tables.heldIds_eq_nil (List.isEmpty_iff.1 hempty), Tables.resolvedNames_nil,
        Action.runIn_pure]
    · have hgrants : (Action.ask (.roles (.grantsOf (world.tables.liveRoleIds member)))).runIn
          world = (.ok (world.tables.grants.filter
            ((world.tables.liveRoleIds member).contains ·.roleId)), world) :=
        Action.runIn_read rfl rfl
      refine (Action.runIn_bind_ok hgrants _).trans ?_
      change (if (world.tables.heldIds organizationId member).isEmpty then _ else _ :
        Action _).runIn world = _
      split
      · rename_i hempty
        rw [List.isEmpty_iff.1 hempty, Tables.resolvedNames_nil, Action.runIn_pure]
      · exact Resolution.runIn_namesOf world _

/-- The permissions resolved for a user in an organization; none without a membership. -/
def Tables.resolved (tables : Tables) (organizationId userId : String) : List String :=
  match tables.memberships.find? (isMemberOf organizationId userId) with
  | none => []
  | some member => tables.resolvedNames (tables.heldIds organizationId member)

/-- Resolving the permissions of a user in an organization always returns. -/
theorem Resolution.runIn_inOrganization (world : World) (organizationId userId : String) :
    (Resolution.inOrganization organizationId userId).runIn world =
      (.ok (world.tables.resolved organizationId userId), world) := by
  have hread : (Action.ask (.memberships (.find organizationId userId))).runIn world =
      (.ok (world.tables.memberships.find? (Tables.isMemberOf organizationId userId)), world) :=
    Action.runIn_read rfl rfl
  refine (Action.runIn_bind_ok hread _).trans ?_
  unfold Tables.resolved
  cases world.tables.memberships.find? (Tables.isMemberOf organizationId userId) with
  | none => exact Action.runIn_pure _ _
  | some member => exact Resolution.runIn_ofMember world organizationId member

/-- With an available catalog, what a stored role grants at a scope are the names of the ids seen
from there. -/
theorem Roles.runIn_permissions_at {world : World}
    (havailable : world.tables.catalogAvailable = true) {roleId : String}
    {scope tenantId : Option String} {role : Role} {split : Grant.Split}
    (hrole : world.tables.roles.find? (·.id == roleId) = some role)
    (hview : (Roles.viewTenant role scope).runIn world = (.ok tenantId, world))
    (hsplit : Grant.splitByScope (world.tables.grants.filter ([role.id].contains ·.roleId)) role
      scope tenantId = split) :
    (Roles.permissions roleId scope).runIn world =
      (.ok (Permission.merge (Permission.namesOf world.tables.catalog split.baseline)
        (Permission.namesOf world.tables.catalog split.explicit)), world) := by
  have hgrants : (Action.ask (.roles (.grantsOf [role.id]))).runIn world =
      (.ok (world.tables.grants.filter ([role.id].contains ·.roleId)), world) :=
    Action.runIn_read rfl rfl
  refine (Action.runIn_bind_ok (Roles.runIn_load hrole) _).trans ?_
  refine (Action.runIn_bind_ok hview _).trans ((Action.runIn_bind_ok hgrants _).trans ?_)
  dsimp only
  rw [hsplit]
  split
  · rename_i hempty
    have hnone : split.baseline ++ split.explicit = [] := by simpa using hempty
    obtain ⟨hbaseline, hexplicit⟩ := List.append_eq_nil_iff.1 hnone
    simp [hbaseline, hexplicit, Permission.merge, Permission.normalize, Permission.namesOf,
      Text.trimmedTexts, Text.keepFirst]
  · refine (Action.runIn_bind_ok
      (Action.runIn_read rfl (Tables.perform_namesForIds havailable _)) _).trans ?_
    have hbaseline : ∀ other ∈ split.baseline,
        other ∈ Text.keepFirst id [] (split.baseline ++ split.explicit) := fun other hmem =>
      Text.mem_keepFirst_id.2 (List.mem_append_left _ hmem)
    have hexplicit : ∀ other ∈ split.explicit,
        other ∈ Text.keepFirst id [] (split.baseline ++ split.explicit) := fun other hmem =>
      Text.mem_keepFirst_id.2 (List.mem_append_right _ hmem)
    rw [Tables.namesOf_namesForIds hbaseline, Tables.namesOf_namesForIds hexplicit]
    rfl

/-- With an available catalog, what a stored role grants in a stored organization are the names of
the ids seen from there. -/
theorem Roles.runIn_permissions {world : World} (havailable : world.tables.catalogAvailable = true)
    {roleId : String} {role : Role} {org : Organization}
    (hrole : world.tables.roles.find? (·.id == roleId) = some role)
    (horg : world.tables.organizations.find? (·.id == org.id) = some org) :
    (Roles.permissions roleId (some org.id)).runIn world =
      (.ok (world.tables.granted org roleId), world) := by
  have hview : (Roles.viewTenant role (some org.id)).runIn world = (.ok org.tenantId, world) :=
    Action.runIn_bind_ok (Action.runIn_loadOrganization horg) _
  rw [Roles.runIn_permissions_at havailable hrole hview rfl]
  simp [Tables.granted, hrole, Tables.grantedSplit]

/-! ## The two views have the same ids -/

/-- A grant that agrees with the ledger, of a role that fits an organization, is seen by the
members there exactly if it is explicit or inherited there. -/
theorem Ledger.AdmitsGrant.visible_iff {ledger : Ledger} {grant : Grant} {role : Role}
    {organizationId : String} {tenantId : Option String} (hadmits : ledger.AdmitsGrant grant)
    (hrole : ledger.scopeOf grant.roleId = some role.scope)
    (hfits : role.scope.fits organizationId tenantId = true) :
    grant.visibleToOrganization organizationId = true ↔
      grant.organizationId = some organizationId ∨
        grant.organizationId ≠ some organizationId ∧
          role.isDefinedOutside (some organizationId) = true ∧
          grant.organizationId = role.organizationId := by
  obtain ⟨scope, hscope, hgrants⟩ := hadmits.granted
  have hsame : scope = role.scope := Option.some.inj (hscope.symm.trans hrole)
  subst hsame
  cases hgrant : grant.organizationId with
  | none =>
      rw [hgrant] at hgrants
      have htemplate : role.organizationId = none := hgrants.1
      simp [Grant.visibleToOrganization, hgrant, Role.isDefinedOutside, htemplate]
  | some other =>
      have howner : ∀ owner, role.organizationId = some owner → owner = organizationId := by
        intro owner howner
        have hall : role.organizationId.all (· == organizationId) = true :=
          (Bool.and_eq_true_iff.1 hfits).1
        simpa [howner] using hall
      simp only [Grant.visibleToOrganization, hgrant, Option.all_some, beq_iff_eq,
        Option.some.injEq, ne_eq]
      constructor
      · exact fun heq => .inl heq
      · rintro (heq | ⟨hne, -, hown⟩)
        · exact heq
        · exact absurd (howner other hown.symm) hne

/-- The ids that a role grants in an organization are those of the grants seen there. -/
theorem Tables.mem_grantedIds {tables : Tables} {role : Role} {org : Organization} {id : String} :
    id ∈ tables.grantedIds role org ↔
      ∃ grant ∈ tables.grants, grant.permissionId = id ∧ grant.roleId = role.id ∧
        grant.visibleToTenant org.tenantId = true ∧
        (grant.organizationId = some org.id ∨
          grant.organizationId ≠ some org.id ∧ role.isDefinedOutside (some org.id) = true ∧
            grant.organizationId = role.organizationId) := by
  simp only [grantedIds, grantedSplit, Grant.splitByScope, List.mem_append, List.mem_map,
    List.mem_filter, Bool.and_eq_true, beq_iff_eq, bne_iff_ne, List.contains_iff_mem,
    List.mem_singleton]
  constructor
  · rintro (⟨grant, ⟨⟨⟨hmem, -⟩, hrole, htenant⟩, ⟨hne, hout⟩, hown⟩, rfl⟩ |
      ⟨grant, ⟨⟨⟨hmem, -⟩, hrole, htenant⟩, heq⟩, rfl⟩)
    · exact ⟨grant, hmem, rfl, hrole, htenant, .inr ⟨hne, hout, hown⟩⟩
    · exact ⟨grant, hmem, rfl, hrole, htenant, .inl heq⟩
  · rintro ⟨grant, hmem, rfl, hrole, htenant, heq | ⟨hne, hout, hown⟩⟩
    · exact .inr ⟨grant, ⟨⟨⟨hmem, hrole⟩, hrole, htenant⟩, heq⟩, rfl⟩
    · exact .inl ⟨grant, ⟨⟨⟨hmem, hrole⟩, hrole, htenant⟩, ⟨hne, hout⟩, hown⟩, rfl⟩

/-- The live roles of a membership with tidy role ids are the assigned ones that are stored. -/
theorem Tables.mem_liveRoleIds {tables : Tables} {member : Membership}
    (htidy : ∀ roleId ∈ member.roleIds, Text.IsTidy roleId) {roleId : String} :
    roleId ∈ tables.liveRoleIds member ↔
      roleId ∈ member.roleIds ∧ ∃ role, tables.roles.find? (·.id == roleId) = some role := by
  simp only [liveRoleIds, List.mem_map, List.mem_filterMap, Text.mem_distinctTrimmed_of_tidy htidy]
  constructor
  · rintro ⟨role, ⟨assigned, hassigned, hfind⟩, rfl⟩
    have hid : role.id = assigned := Tables.key_of_find hfind
    rw [← hid] at hassigned hfind
    exact ⟨hassigned, role, hfind⟩
  · rintro ⟨hassigned, role, hfind⟩
    exact ⟨role, ⟨roleId, hassigned, hfind⟩, Tables.key_of_find hfind⟩

/-- The ids that a member holds are the trimmed ones, if not blank, of the grants of live roles that
the member sees. -/
theorem Tables.mem_heldIds_iff_trimmed {tables : Tables} {organizationId : String}
    {member : Membership} {id : String} :
    id ∈ tables.heldIds organizationId member ↔
      id ≠ "" ∧ ∃ grant ∈ tables.grants, Text.trim grant.permissionId = id ∧
        grant.roleId ∈ tables.liveRoleIds member ∧
        grant.visibleToOrganization organizationId = true ∧
        grant.visibleToTenant member.tenantId = true := by
  simp only [heldIds, Text.mem_distinctTrimmed, Text.trimmedTexts, Grant.visibleToMember,
    List.mem_filter, List.mem_map, Bool.and_eq_true, List.contains_iff_mem, bne_iff_ne]
  constructor
  · rintro ⟨⟨_, ⟨grant, ⟨⟨hmem, hlive⟩, ⟨-, hsees⟩, hview⟩, rfl⟩, rfl⟩, hne⟩
    exact ⟨hne, grant, hmem, rfl, hlive, hsees, hview⟩
  · rintro ⟨hne, grant, hmem, rfl, hlive, hsees, hview⟩
    exact ⟨⟨_, ⟨grant, ⟨⟨hmem, hlive⟩, ⟨hlive, hsees⟩, hview⟩, rfl⟩, rfl⟩, hne⟩

/-- The ids that a member holds are those of the grants of live roles that the member sees. -/
theorem Tables.mem_heldIds {tables : Tables} {organizationId : String} {member : Membership}
    (htidy : ∀ grant ∈ tables.grants, Text.IsTidy grant.permissionId) {id : String} :
    id ∈ tables.heldIds organizationId member ↔
      ∃ grant ∈ tables.grants, grant.permissionId = id ∧
        grant.roleId ∈ tables.liveRoleIds member ∧
        grant.visibleToOrganization organizationId = true ∧
        grant.visibleToTenant member.tenantId = true := by
  rw [mem_heldIds_iff_trimmed]
  constructor
  · rintro ⟨-, grant, hmem, rfl, hseen⟩
    exact ⟨grant, hmem, (htidy grant hmem).trim.symm, hseen⟩
  · rintro ⟨grant, hmem, rfl, hseen⟩
    exact ⟨(htidy grant hmem).ne, grant, hmem, (htidy grant hmem).trim, hseen⟩

namespace Ledger.Describes

variable {ledger : Ledger} {world : World} {member : Membership} {org : Organization}

/-- A membership has the tenant of its organization. -/
theorem tenantId_eq (describes : ledger.Describes world)
    (hmember : member ∈ world.tables.memberships) (horg : org ∈ world.tables.organizations)
    (hid : member.organizationId = org.id) : member.tenantId = org.tenantId := by
  have hknown := describes.tenants org horg
  rw [← hid, (describes.members member hmember).tenant] at hknown
  exact Option.some.inj hknown

/-- A stored role that is assigned to a member fits the organization. -/
theorem assigned_fits (describes : ledger.Describes world)
    (hmember : member ∈ world.tables.memberships) {roleId : String} {role : Role}
    (hassigned : roleId ∈ member.roleIds)
    (hfind : world.tables.roles.find? (·.id == roleId) = some role) :
    ledger.scopeOf roleId = some role.scope ∧
      role.scope.fits member.organizationId member.tenantId = true := by
  have hadmits := describes.members member hmember
  have hrole : role.id = roleId := Tables.key_of_find hfind
  have hscope := describes.scopes role (List.mem_of_find?_eq_some hfind)
  rw [hrole] at hscope
  obtain ⟨assignment, hassignment, rfl⟩ := List.mem_map.1 hassigned
  obtain ⟨scope, tenantId, hknown, htenant, hfits⟩ :=
    (hadmits.assignments assignment hassignment).assigns.fits
  have hsameScope : scope = role.scope := Option.some.inj (hknown.symm.trans hscope)
  have hsameTenant : tenantId = member.tenantId :=
    Option.some.inj (htenant.symm.trans hadmits.tenant)
  rw [hsameScope, hsameTenant] at hfits
  exact ⟨hscope, hfits⟩

/-- The permissions a member holds are those that its stored roles grant in the organization. -/
theorem mem_heldIds (describes : ledger.Describes world) (tidy : world.tables.HasTidyGrants)
    (hmember : member ∈ world.tables.memberships) (horg : org ∈ world.tables.organizations)
    (hid : member.organizationId = org.id) {id : String} :
    id ∈ world.tables.heldIds org.id member ↔
      ∃ roleId ∈ member.roleIds, ∃ role, world.tables.roles.find? (·.id == roleId) = some role ∧
        id ∈ world.tables.grantedIds role org := by
  have hadmits := describes.members member hmember
  have htenant := describes.tenantId_eq hmember horg hid
  rw [Tables.mem_heldIds tidy]
  constructor
  · rintro ⟨grant, hgrant, hperm, hlive, hsees, hview⟩
    obtain ⟨hassigned, role, hfind⟩ := (Tables.mem_liveRoleIds hadmits.tidy).1 hlive
    obtain ⟨hscope, hfits⟩ := describes.assigned_fits hmember hassigned hfind
    rw [hid] at hfits
    have hrole : role.id = grant.roleId := Tables.key_of_find hfind
    refine ⟨grant.roleId, hassigned, role, hfind, Tables.mem_grantedIds.2 ?_⟩
    exact ⟨grant, hgrant, hperm, hrole.symm, htenant ▸ hview,
      ((describes.grants grant hgrant).visible_iff hscope hfits).1 hsees⟩
  · rintro ⟨roleId, hassigned, role, hfind, hgranted⟩
    obtain ⟨grant, hgrant, hperm, hroleId, hview, hsplit⟩ := Tables.mem_grantedIds.1 hgranted
    obtain ⟨hscope, hfits⟩ := describes.assigned_fits hmember hassigned hfind
    rw [hid] at hfits
    have hrole : role.id = roleId := Tables.key_of_find hfind
    have hgrantRole : grant.roleId = roleId := hroleId.trans hrole
    refine ⟨grant, hgrant, hperm, ?_, ?_, htenant ▸ hview⟩
    · rw [hgrantRole]
      exact (Tables.mem_liveRoleIds hadmits.tidy).2 ⟨hassigned, role, hfind⟩
    · exact ((describes.grants grant hgrant).visible_iff (hgrantRole ▸ hscope) hfits).2 hsplit

/-- The organization of a membership is stored. -/
theorem find_organization (describes : ledger.Describes world)
    (hmember : member ∈ world.tables.memberships) :
    ∃ org, world.tables.organizations.find? (·.id == member.organizationId) = some org := by
  obtain ⟨org, horg, hid⟩ :=
    describes.stored _ _ (describes.members member hmember).tenant
  rw [← Option.isSome_iff_exists, List.find?_isSome]
  exact ⟨org, horg, by simpa using hid⟩

end Ledger.Describes

/-! ## The two views have the same names -/

/-- What is resolved for a member and what each of its stored roles grants in the organization are
both returned, and up to case the resolved names are those that some role grants. -/
def World.ViewsAgree (world : World) (organizationId userId : String) (member : Membership) :
    Prop :=
  ∃ (held : List String) (granted : String → RolePermissions),
    (Resolution.inOrganization organizationId userId).runIn world = (.ok held, world) ∧
    (∀ roleId ∈ member.roleIds, (∃ role ∈ world.tables.roles, role.id = roleId) →
      (Roles.permissions roleId (some organizationId)).runIn world =
        (.ok (granted roleId), world)) ∧
    ∀ name, name ∈ held.map Text.lowercase ↔
      ∃ roleId ∈ member.roleIds, (∃ role ∈ world.tables.roles, role.id = roleId) ∧
        name ∈ (granted roleId).effective.map Text.lowercase

/-- In every reachable world with an available catalog, the permissions resolved for a member are
those that its stored roles grant in the organization. -/
theorem resolved_eq_union_of_roles {regime : Regime} {world : World} {config : Configuration}
    (starts : regime.Starts world) (reaches : regime.Reaches world config)
    (distinct : ∀ world, regime.admits world → world.supply.DistinctIds)
    (tidy : ∀ world, regime.admits world → world.tables.HasTidyCatalog)
    (havailable : config.world.tables.catalogAvailable = true)
    {organizationId userId : String} {member : Membership}
    (hfind : config.world.tables.memberships.find? (Tables.isMemberOf organizationId userId) =
      some member) :
    config.world.ViewsAgree organizationId userId member := by
  obtain ⟨ledger, describes⟩ := reaches.described starts distinct
  have tidyGrants := reaches.hasTidyGrants starts tidy
  generalize config.world = world at *
  obtain ⟨hmember, hkey⟩ := Tables.find_isMemberOf hfind
  have horganization : member.organizationId = organizationId := (Prod.ext_iff.1 hkey).1
  obtain ⟨org, horg⟩ := describes.find_organization hmember
  rw [horganization] at horg
  have hid : org.id = organizationId := by simpa using List.find?_some horg
  subst hid
  have horgMem : org ∈ world.tables.organizations := List.mem_of_find?_eq_some horg
  have hresolved : world.tables.resolved org.id userId = Permission.normalize
      (Permission.namesOf world.tables.catalog (world.tables.heldIds org.id member)) := by
    simp [Tables.resolved, hfind, Tables.resolvedNames, havailable]
  refine ⟨_, world.tables.granted org, Resolution.runIn_inOrganization world org.id userId, ?_,
    fun name => ?_⟩
  · intro roleId _ hstored
    obtain ⟨role, hrole⟩ := Tables.find_role_of_stored hstored
    exact Roles.runIn_permissions havailable hrole horg
  · rw [hresolved, Permission.mem_lowercase_normalize_namesOf]
    constructor
    · rintro ⟨id, hheld, hname⟩
      obtain ⟨roleId, hassigned, role, hrole, hgranted⟩ :=
        (describes.mem_heldIds tidyGrants hmember horgMem horganization).1 hheld
      exact ⟨roleId, hassigned, Tables.stored_of_find_role hrole,
        (Tables.mem_lowercase_granted hrole).2 ⟨id, hgranted, hname⟩⟩
    · rintro ⟨roleId, hassigned, hstored, hname⟩
      obtain ⟨role, hrole⟩ := Tables.find_role_of_stored hstored
      obtain ⟨id, hgranted, hname⟩ := (Tables.mem_lowercase_granted hrole).1 hname
      refine ⟨id, ?_, hname⟩
      exact (describes.mem_heldIds tidyGrants hmember horgMem horganization).2
        ⟨roleId, hassigned, role, hrole, hgranted⟩

/-- A member with a template that is granted one permission everywhere and another in the
organization, and with a role of the organization itself. -/
theorem resolved_eq_union_of_roles_template_and_own :
    ∃ config member,
      Regime.orderly.Reaches
        (World.blank [("p1", "Docs:Read"), ("p2", "docs:write"), ("p3", "audit")]) config ∧
      config.world.tables.grants.map (·.permissionId) = ["p1", "p3", "p2"] ∧
      member.roleIds = ["aa", "aaa"] ∧ config.world.ViewsAgree "a" "u" member := by
  have starts : Regime.orderly.Starts
      (World.blank [("p1", "Docs:Read"), ("p2", "docs:write"), ("p3", "audit")]) :=
    Regime.orderly_starts_blank (by decide +kernel)
  obtain ⟨config, reaches, hworld⟩ := Regime.orderly_operations starts default
    [.createOrganization
      { slug := "north", displayName := "North", tenantId := none, metadata := .empty },
     .createRole
      { name := "reader", description := none, isSystem := false, organizationId := none
        tenantId := none },
     .createRole
      { name := "writer", description := none, isSystem := false, organizationId := some "a"
        tenantId := none },
     .setRolePermissions "aa" none ["docs:read"],
     .setRolePermissions "aa" (some "a") ["audit"],
     .setRolePermissions "aaa" (some "a") ["docs:write"],
     .addMember
      { organizationId := "a", userId := "u", tenantId := none, isPrimary := false
        roleIds := ["aa", "aaa"] }]
  have hended : (config.world.tables.memberships.find? (Tables.isMemberOf "a" "u")).map
      (·.roleIds) = some ["aa", "aaa"] ∧
      config.world.tables.grants.map (·.permissionId) = ["p1", "p3", "p2"] ∧
      config.world.tables.catalogAvailable = true := by
    rw [hworld]
    decide +kernel
  obtain ⟨hroles, hgrants, havailable⟩ := hended
  obtain ⟨member, hfind, hassigned⟩ := Option.map_eq_some_iff.1 hroles
  exact ⟨config, member, reaches, hgrants, hassigned,
    resolved_eq_union_of_roles starts reaches (fun _ orderly => orderly.distinctIds)
      (fun _ orderly => orderly.catalog) havailable hfind⟩

end Tenancy
