import Tenancy.Proofs.PermissionViews

/-!
# Tenancy - Integrity of memberships

A membership repeats what other records say: it copies the tenant of its
organization, and its assignments copy its key and its tenant.  No write checks all
of this at once, and between a check and the write other operations may delete the
roles that were checked.  What is stored is sound nevertheless, with one gap that is
left open on purpose: a role that was deleted may stay assigned.

Main definitions:

- `Tables.IsIntegral`: what a stored membership says agrees with the other records.

Main results:

- Theorem `Tables.HasDistinctKeys.find_member`: a stored membership is the one under
  its key.
- Theorem `Ledger.AdmitsMember.copies`, `Ledger.Describes.assigned_role_fits`: what a
  ledger says of assignments.
- Theorem `isIntegral_of_reaches`: memberships are sound after every interleaving of
  operations.
-/

namespace Tenancy

/-- What a stored membership says agrees with the other records. -/
structure Tables.IsIntegral (tables : Tables) (member : Membership) : Prop where
  /-- The membership is stored under its own key. -/
  keyed : tables.memberships.find? (isMemberOf member.organizationId member.userId) = some member
  /-- The organization exists, has the membership's tenant, and may assign each assigned role that
  still exists. -/
  organization : ∃ org,
    tables.organizations.find? (·.id == member.organizationId) = some org ∧
      org.tenantId = member.tenantId ∧
      ∀ role ∈ tables.roles, role.id ∈ member.roleIds → role.fits org = true
  distinct : member.roleIds.Nodup
  named : ∀ roleId ∈ member.roleIds, Text.trim roleId ≠ ""
  assignments : ∀ assignment ∈ member.roles,
    assignment.organizationId = member.organizationId ∧ assignment.userId = member.userId ∧
      assignment.tenantId = member.tenantId

/-! ## Keys -/

/-- A stored membership is the one that is found under its key. -/
theorem Tables.HasDistinctKeys.find_member {tables : Tables} (distinct : tables.HasDistinctKeys)
    {member : Membership} (hmember : member ∈ tables.memberships) :
    tables.memberships.find? (isMemberOf member.organizationId member.userId) = some member := by
  have hsome : (tables.memberships.find?
      (isMemberOf member.organizationId member.userId)).isSome = true :=
    List.find?_isSome.2 ⟨member, hmember, isMemberOf_iff.2 rfl⟩
  obtain ⟨found, hfound⟩ := Option.isSome_iff_exists.1 hsome
  obtain ⟨hmem, hkey⟩ := find_isMemberOf hfound
  rw [hfound, eq_of_key_eq distinct.memberships hmem hmember hkey]

/-! ## Assignments -/

namespace Ledger

variable {ledger : Ledger} {world : World} {member : Membership}

/-- The assignments of a membership copy its key and its tenant. -/
theorem AdmitsMember.copies (hadmits : ledger.AdmitsMember member) {assignment : RoleAssignment}
    (hmem : assignment ∈ member.roles) :
    assignment.organizationId = member.organizationId ∧ assignment.userId = member.userId ∧
      assignment.tenantId = member.tenantId := by
  have hassignment := hadmits.assignments assignment hmem
  have htenants : some assignment.tenantId = some member.tenantId :=
    hassignment.tenant.symm.trans hadmits.tenant
  exact ⟨hassignment.ofOrganization, hassignment.ofUser, Option.some.inj htenants⟩

/-- An assigned role that is stored fits the organization of the membership. -/
theorem Describes.assigned_role_fits (describes : ledger.Describes world)
    (distinct : world.tables.HasDistinctKeys) (hmember : member ∈ world.tables.memberships)
    {org : Organization} (hid : org.id = member.organizationId)
    (htenant : org.tenantId = member.tenantId) {role : Role} (hrole : role ∈ world.tables.roles)
    (hassigned : role.id ∈ member.roleIds) : role.fits org = true := by
  obtain ⟨found, hfound⟩ := Tables.find_role_of_stored ⟨role, hrole, rfl⟩
  have hkey : found.id = role.id := Tables.key_of_find hfound
  have hsame : found = role :=
    Tables.eq_of_key_eq distinct.roles (List.mem_of_find?_eq_some hfound) hrole hkey
  rw [hsame] at hfound
  obtain ⟨-, hfits⟩ := describes.assigned_fits hmember hassigned hfound
  rw [← hid, ← htenant] at hfits
  exact hfits

end Ledger

/-! ## Every stored membership -/

/-- After every interleaving of operations in which ids never repeat, every stored membership agrees
with the other records. -/
theorem isIntegral_of_reaches {regime : Regime} {world : World} {config : Configuration}
    (starts : regime.Starts world) (reaches : regime.Reaches world config)
    (distinct : ∀ world, regime.admits world → world.supply.DistinctIds) {member : Membership}
    (hmember : member ∈ config.world.tables.memberships) :
    config.world.tables.IsIntegral member := by
  obtain ⟨ledger, describes⟩ := reaches.described starts distinct
  have distinctKeys := reaches.hasDistinctKeys starts
  have hadmits := describes.members member hmember
  obtain ⟨org, hfind⟩ := describes.find_organization hmember
  have horg := List.mem_of_find?_eq_some hfind
  have hid : org.id = member.organizationId := Tables.key_of_find hfind
  have htenant := describes.tenantId_eq hmember horg hid.symm
  constructor
  case keyed => exact distinctKeys.find_member hmember
  case organization =>
    refine ⟨org, hfind, htenant.symm, fun role hrole hassigned => ?_⟩
    exact describes.assigned_role_fits distinctKeys hmember hid htenant.symm hrole hassigned
  case distinct => exact hadmits.distinct
  case named =>
    intro roleId hassigned hblank
    have htidy := hadmits.tidy roleId hassigned
    exact htidy.ne (htidy.trim.symm.trans hblank)
  case assignments => exact fun assignment hmem => hadmits.copies hmem

/-- A member accepts an invitation to two roles; one of them is deleted after it was checked. -/
theorem isIntegral_of_reaches_deleted_role :
    ∃ config member, Regime.orderly.Reaches (World.blank []) config ∧
      member ∈ config.world.tables.memberships ∧ member.roleIds = ["aa", "aaa"] ∧
      config.world.tables.roles.map (·.id) = ["aa"] ∧
      config.world.tables.IsIntegral member := by
  have starts : Regime.orderly.Starts (World.blank []) := Regime.orderly_starts_blank (by simp)
  obtain ⟨config, reaches, hmembers, hroles⟩ : ∃ config,
      Regime.orderly.Reaches (World.blank []) config ∧
        config.world.tables.memberships.map (·.roleIds) = [["aa", "aaa"]] ∧
        config.world.tables.roles.map (·.id) = ["aa"] :=
    ⟨_, Regime.orderly_scheduled starts default
      [.createOrganization
        { slug := "north", displayName := "North", tenantId := none, metadata := .empty },
       .createRole
        { name := "reader", description := none, isSystem := false, organizationId := none
          tenantId := none },
       .createRole
        { name := "writer", description := none, isSystem := false, organizationId := some "a"
          tenantId := none },
       .addMember
        { organizationId := "a", userId := "u", tenantId := none, isPrimary := false
          roleIds := ["aa"] },
       .createInvitation
        { organizationId := "a", email := "u@example.com", createdBy := "c"
          roleIds := ["aa", "aaa"], expiresInHours := none },
       .acceptInvitation "AAAA"
        { id := "u", email := "u@example.com", displayName := none, createdAt := 0 },
       .deleteRole "aaa"]
      (List.replicate 9 0 ++ List.replicate 9 1 ++ List.replicate 9 2 ++ List.replicate 9 3 ++
        List.replicate 9 4 ++ List.replicate 5 5 ++ List.replicate 9 6 ++ List.replicate 9 5),
      by decide +kernel, by decide +kernel⟩
  obtain ⟨member, hmember, hassigned⟩ : ∃ member ∈ config.world.tables.memberships,
      member.roleIds = ["aa", "aaa"] := by
    have hmem : ["aa", "aaa"] ∈ config.world.tables.memberships.map (·.roleIds) := by
      rw [hmembers]
      exact List.mem_cons_self
    exact List.mem_map.1 hmem
  exact ⟨config, member, reaches, hmember, hassigned, hroles,
    isIntegral_of_reaches starts reaches (fun _ orderly => orderly.distinctIds) hmember⟩

end Tenancy
