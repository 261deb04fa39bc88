import Tenancy.Proofs.PermissionRoundTrip
import Tenancy.Proofs.SerialRuns

/-!
# Tenancy - From a grant to a member's permissions

Permissions are granted to a role by name and stored by id; what a member holds is
resolved from the ids of grants back to names.  The grant is written for the ids of
the catalog as they are, but resolving trims them first.  So a name that was granted
is held by every member with the role exactly if the catalog has it under an id that
trimming leaves as it is.

Main definitions:

- `Permission.Arrives`: what becomes of a granted name among the names a member holds.
- `World.ResolvesGranted`: what a member holds after permissions were set.

Main results:

- Theorem `Roles.settled_of_runIn`: setting permissions with success settles them.
- Theorem `Tables.Settled.mem_heldIds`: members with the role hold the tidy ids.
- Theorem `resolvesGranted_of_reaches`: in every reachable world, granted names are held
  where their ids are tidy.
- Theorem `not_held_padded_id`: an id with a blank in front of it is granted in vain.
-/

namespace Tenancy

/-! ## Setting permissions with success -/

/-- Where permissions were set with success, the names are known and their permissions settled. -/
theorem Roles.settled_of_runIn {ledger : Ledger} {world after : World} {roleId : String}
    {scope : Option String} {names : List String} (describes : ledger.Describes world)
    (keys : world.tables.HasDistinctKeys) (distinct : world.tables.HasDistinctGrants)
    (havailable : world.tables.catalogAvailable = true)
    (hrun : (Roles.setPermissions roleId scope names).runIn world = (.ok (), after)) :
    ∃ role tenantId, world.tables.roles.find? (·.id == roleId) = some role ∧
      world.tables.Grantable role scope tenantId ∧
      (∀ name ∈ Permission.normalize names, ¬Permission.IsUnknown world.tables.catalog name) ∧
      world.tables.IsSoundAt role.id scope tenantId ∧
      Tables.Settled world.tables after.tables role.id scope tenantId
        (Permission.wantedIds world.tables.catalog names) := by
  by_cases hgrantable : ∃ role tenantId, world.tables.roles.find? (·.id == roleId) = some role ∧
      world.tables.Grantable role scope tenantId
  case neg =>
    obtain ⟨error, hends⟩ := Roles.setPermissions_ends_refused
      (fun role tenantId hrole grantable => hgrantable ⟨role, tenantId, hrole, grantable⟩) names
    rw [hends.run] at hrun
    cases hrun
  obtain ⟨role, tenantId, hrole, grantable⟩ := hgrantable
  have sound := describes.isSoundAt keys distinct (List.mem_of_find?_eq_some hrole) grantable
  by_cases hunknown : ∃ name ∈ Permission.normalize names,
      Permission.IsUnknown world.tables.catalog name
  case pos =>
    obtain ⟨name, -, -, hends⟩ :=
      Roles.setPermissions_ends_unknown havailable hrole grantable hunknown
    rw [hends.run] at hrun
    cases hrun
  have hknown : ∀ name ∈ Permission.normalize names,
      ¬Permission.IsUnknown world.tables.catalog name :=
    fun name hmem hnone => hunknown ⟨name, hmem, hnone⟩
  obtain ⟨result, last, writes, hsettle, -, -, hsettled⟩ :=
    Roles.settle_settles sound (Permission.wantedIds world.tables.catalog names)
  have hends := Roles.setPermissions_ends_known havailable hrole grantable hknown hsettle
  rw [hends.run] at hrun
  obtain ⟨hok, rfl⟩ := Prod.mk.inj hrun
  exact ⟨role, tenantId, hrole, grantable, hknown, sound, hsettled hok⟩

/-! ## What becomes of a granted name -/

/-- A granted name is among the held ones if the catalog has it under a tidy id; under another id it
is not, unless another permission has the name too. -/
structure Permission.Arrives (catalog : List (String × String)) (held : List String)
    (name permissionId : String) : Prop where
  found : idUnder catalog (Text.lowercase name) = some permissionId
  kept : Text.IsTidy permissionId → Text.lowercase name ∈ held.map Text.lowercase
  lost : ¬Text.IsTidy permissionId →
    (∀ entry ∈ catalog, Text.lowercase (Text.trim entry.2) = Text.lowercase name →
      entry.1 = permissionId) →
    Text.lowercase name ∉ held.map Text.lowercase

/-- After permissions were set by name, resolving what a user holds in an organization returns, and
each granted name that is not blank arrives or not by the id under which the catalog has it. -/
def World.ResolvesGranted (after : World) (organizationId userId : String)
    (names : List String) : Prop :=
  ∃ held, (Resolution.inOrganization organizationId userId).runIn after = (.ok held, after) ∧
    ∀ name ∈ Text.trimmedTexts names, ∃ permissionId,
      Permission.Arrives after.tables.catalog held name permissionId

section Held

variable {before after : Tables} {role : Role} {organizationId : String}
  {tenantId : Option String} {member : Membership} {wanted : List String} {permissionId : String}

/-- Where a role's permissions at an organization were settled, its members there hold those that
have tidy ids. -/
theorem Tables.Settled.mem_heldIds
    (settled : Settled before after role.id (some organizationId) tenantId wanted)
    (sound : after.IsSoundAt role.id (some organizationId) tenantId)
    (hlive : role.id ∈ after.liveRoleIds member) (htenant : member.tenantId = tenantId)
    (hwanted : permissionId ∈ wanted) (htidy : Text.IsTidy permissionId) :
    permissionId ∈ after.heldIds organizationId member := by
  have hassigned : permissionId ∈ after.assignedAt role.id (some organizationId) :=
    settled.mem_assignedAt.2 hwanted
  obtain ⟨grant, hgrant, rfl⟩ := List.mem_map.1 hassigned
  obtain ⟨hstored, hrole, hscope⟩ := Tables.mem_grantsAt.1 hgrant
  have hview : grant.tenantId = member.tenantId := (sound.tenants grant hgrant).trans htenant.symm
  rw [mem_heldIds_iff_trimmed]
  refine ⟨htidy.ne, grant, hstored, htidy.trim, ?_, ?_, ?_⟩
  · rw [hrole]
    exact hlive
  · simp [Grant.visibleToOrganization, hscope]
  · simp [Grant.visibleToTenant, hview]

/-- The ids that a member holds are tidy. -/
theorem Tables.isTidy_of_mem_heldIds {tables : Tables}
    (hheld : permissionId ∈ tables.heldIds organizationId member) : Text.IsTidy permissionId := by
  obtain ⟨hne, grant, -, rfl, -⟩ := mem_heldIds_iff_trimmed.1 hheld
  exact ⟨Text.trim_trim _, hne⟩

end Held

/-- A name under which a catalog knows an id is that of an entry with the id. -/
theorem Permission.Names.exists_entry {catalog : List (String × String)} {id name : String}
    (hnames : Names catalog id name) :
    ∃ entry ∈ catalog, entry.1 = id ∧ Text.lowercase (Text.trim entry.2) = name := by
  obtain ⟨spelled, hlookup, -, rfl⟩ := hnames
  obtain ⟨front, back, rfl, -⟩ := List.lookup_eq_some_iff.1 hlookup
  exact ⟨(id, spelled), by simp, rfl, rfl⟩

/-- The names of a list of tidy ids that has the tidy ones of the wanted permissions: whether a
wanted name arrives there depends on its id. -/
theorem Permission.arrives_of_mem_wantedIds {catalog : List (String × String)}
    {names ids : List String} (keyed : (catalog.map (·.1)).Nodup)
    (hknown : ∀ name ∈ normalize names, ¬IsUnknown catalog name)
    (htidy : ∀ id ∈ ids, Text.IsTidy id)
    (hheld : ∀ id ∈ wantedIds catalog names, Text.IsTidy id → id ∈ ids) {name : String}
    (hname : name ∈ Text.trimmedTexts names) :
    ∃ permissionId, Arrives catalog (normalize (namesOf catalog ids)) name permissionId := by
  obtain ⟨kept, hkept, hlower⟩ := exists_mem_normalize hname
  have hkey : Text.lowercase name ∈ (normalize names).map Text.lowercase := by
    rw [← hlower]
    exact List.mem_map_of_mem hkept
  have hfound : idUnder catalog (Text.lowercase name) ≠ none := by
    rw [← hlower]
    exact fun hnone => hknown kept hkept (idUnder_eq_none_iff.1 hnone)
  obtain ⟨permissionId, hid⟩ := Option.ne_none_iff_exists'.1 hfound
  have hwanted : permissionId ∈ wantedIds catalog names := mem_wantedIds.2 ⟨_, hkey, hid⟩
  have hnameTidy : Text.IsTidy (Text.lowercase name) := by
    rw [Text.isTidy_lowercase]
    exact Text.isTidy_of_mem_trimmedTexts hname
  refine ⟨permissionId, hid, fun hidTidy => ?_, fun huntidy hsingle hmem => ?_⟩
  · apply mem_lowercase_normalize_namesOf.2
    exact ⟨permissionId, hheld permissionId hwanted hidTidy,
      (names_idUnder keyed hnameTidy hid _).2 rfl⟩
  · -- The name would come from a tidy id, but only the untidy one has it.
    obtain ⟨other, hother, hnames⟩ := mem_lowercase_normalize_namesOf.1 hmem
    obtain ⟨entry, hentry, rfl, hsame⟩ := hnames.exists_entry
    rw [hsingle entry hentry hsame] at hother
    exact huntidy (htidy permissionId hother)

/-! ## Every reachable world -/

/-- In every reachable world with an available catalog, which is a map from ids to names: after a
role was given permissions by name in an organization with success, a member with the role holds
each name that is not blank, if the catalog has it under a tidy id, and otherwise does not. -/
theorem resolvesGranted_of_reaches {regime : Regime} {world : World} {config : Configuration}
    (starts : regime.Starts world) (reaches : regime.Reaches world config)
    (distinct : ∀ world, regime.admits world → world.supply.DistinctIds)
    (havailable : config.world.tables.catalogAvailable = true)
    (keyed : (config.world.tables.catalog.map (·.1)).Nodup)
    {organizationId userId roleId : String} {member : Membership}
    (hfind : config.world.tables.memberships.find? (Tables.isMemberOf organizationId userId) =
      some member)
    (hholds : roleId ∈ member.roleIds) {names : List String} {after : World}
    (hrun : (Roles.setPermissions roleId (some organizationId) names).runIn config.world =
      (.ok (), after)) :
    after.ResolvesGranted organizationId userId names := by
  obtain ⟨ledger, describes⟩ := reaches.described starts distinct
  have keys := reaches.hasDistinctKeys starts
  have distinctGrants := reaches.hasDistinctGrants starts
  generalize config.world = world at *
  obtain ⟨role, tenantId, hrole, grantable, hknown, sound, settled⟩ :=
    Roles.settled_of_runIn describes keys distinctGrants havailable hrun
  have hid : role.id = roleId := Tables.key_of_find hrole
  subst hid
  obtain ⟨hmember, hkey⟩ := Tables.find_isMemberOf hfind
  have horganization : member.organizationId = organizationId := (Prod.ext_iff.1 hkey).1
  have soundAfter := settled.isSoundAt sound (Permission.nodup_wantedIds names)
  -- The member is of the tenant for which the role was granted permissions.
  have htenant : member.tenantId = tenantId := by
    cases grantable with
    | inOrganization found fits =>
        refine describes.tenantId_eq hmember (List.mem_of_find?_eq_some found) ?_
        rw [horganization, Tables.key_of_find found]
  have hlive : role.id ∈ after.tables.liveRoleIds member := by
    rw [Tables.mem_liveRoleIds (describes.members member hmember).tidy, settled.frame]
    exact ⟨hholds, role, hrole⟩
  have hresolved : after.tables.resolved organizationId userId = Permission.normalize
      (Permission.namesOf after.tables.catalog
        (after.tables.heldIds organizationId member)) := by
    have hfindAfter : after.tables.memberships.find? (Tables.isMemberOf organizationId userId) =
        some member := by
      rw [settled.frame]
      exact hfind
    have hopen : after.tables.catalogAvailable = true := by
      rw [settled.frame]
      exact havailable
    simp [Tables.resolved, hfindAfter, Tables.resolvedNames, hopen]
  have hcatalog : after.tables.catalog = world.tables.catalog := by rw [settled.frame]
  refine ⟨_, Resolution.runIn_inOrganization after organizationId userId, fun name hname => ?_⟩
  rw [hresolved, hcatalog]
  apply Permission.arrives_of_mem_wantedIds keyed hknown _ _ hname
  · intro id hheld
    exact Tables.isTidy_of_mem_heldIds hheld
  · intro id hwanted htidy
    exact settled.mem_heldIds soundAfter hlive htenant hwanted htidy

/-- A template of the organization's tenant that is granted a permission there, spelled in another
case and with blanks around it. -/
theorem resolvesGranted_of_reaches_other_case :
    ∃ config member after,
      Regime.unrepeating.Reaches (World.blank [("p1", "Docs:Read"), (" p2", "audit")]) config ∧
      config.world.tables.memberships.find? (Tables.isMemberOf "a" "u") = some member ∧
      member.roleIds = ["aa"] ∧
      (Roles.setPermissions "aa" (some "a") [" docs:READ", ""]).runIn config.world =
        (.ok (), after) ∧
      after.ResolvesGranted "a" "u" [" docs:READ", ""] ∧
      (Resolution.inOrganization "a" "u").runIn after = (.ok ["Docs:Read"], after) := by
  have starts := Regime.unrepeating_starts_blank [("p1", "Docs:Read"), (" p2", "audit")]
  obtain ⟨config, reaches, hworld⟩ := (World.Visits.start.runAll default
    [.createOrganization
      { slug := "north", displayName := "North", tenantId := some "t", metadata := .empty },
     .createRole
      { name := "reader", description := none, isSystem := false, organizationId := none
        tenantId := some "t" },
     .addMember
      { organizationId := "a", userId := "u", tenantId := none, isPrimary := false
        roleIds := ["aa"] }]).reaches starts
  have hended : (config.world.tables.memberships.find? (Tables.isMemberOf "a" "u")).map
      (·.roleIds) = some ["aa"] ∧
      ((Roles.setPermissions "aa" (some "a") [" docs:READ", ""]).runIn config.world).1 =
        .ok () ∧
      ((Roles.setPermissions "aa" (some "a") [" docs:READ", ""]).runIn
        config.world).2.tables.resolved "a" "u" = ["Docs:Read"] ∧
      config.world.tables.catalogAvailable = true ∧
      (config.world.tables.catalog.map (·.1)).Nodup := by
    rw [hworld]
    decide +kernel
  obtain ⟨hroles, hok, hresolved, havailable, keyed⟩ := hended
  obtain ⟨member, hfind, hholds⟩ := Option.map_eq_some_iff.1 hroles
  have hrun : (Roles.setPermissions "aa" (some "a") [" docs:READ", ""]).runIn config.world =
      (.ok (), _) := Prod.ext hok rfl
  refine ⟨config, member, _, reaches, hfind, hholds, hrun, ?_, ?_⟩
  · apply resolvesGranted_of_reaches starts reaches Regime.unrepeating_distinctIds havailable keyed
      hfind _ hrun
    simp [hholds]
  · rw [Resolution.runIn_inOrganization, hresolved]

/-- The catalog has a permission under an id that begins with a blank.  The permission is granted and
shown for the role in the organization, but a member with the role does not hold it. -/
theorem not_held_padded_id :
    ∃ config member after,
      Regime.unrepeating.Reaches (World.blank [(" p1", "docs:read")]) config ∧
      config.world.tables.catalogAvailable = true ∧
      config.world.tables.memberships.find? (Tables.isMemberOf "a" "u") = some member ∧
      "aa" ∈ member.roleIds ∧
      (Roles.setPermissions "aa" (some "a") ["docs:read"]).runIn config.world = (.ok (), after) ∧
      ((Roles.permissions "aa" (some "a")).runIn after).1 =
        .ok { effective := ["docs:read"], explicit := ["docs:read"] } ∧
      ((Resolution.inOrganization "a" "u").runIn after).1 = .ok [] := by
  have starts := Regime.unrepeating_starts_blank [(" p1", "docs:read")]
  obtain ⟨config, reaches, hworld⟩ := (World.Visits.start.runAll default
    [.createOrganization
      { slug := "north", displayName := "North", tenantId := none, metadata := .empty },
     .createRole
      { name := "reader", description := none, isSystem := false, organizationId := some "a"
        tenantId := none },
     .addMember
      { organizationId := "a", userId := "u", tenantId := none, isPrimary := false
        roleIds := ["aa"] }]).reaches starts
  have hended : (config.world.tables.memberships.find? (Tables.isMemberOf "a" "u")).map
      (·.roleIds) = some ["aa"] ∧
      ((Roles.setPermissions "aa" (some "a") ["docs:read"]).runIn config.world).1 = .ok () ∧
      ((Roles.permissions "aa" (some "a")).runIn
        ((Roles.setPermissions "aa" (some "a") ["docs:read"]).runIn config.world).2).1 =
          .ok { effective := ["docs:read"], explicit := ["docs:read"] } ∧
      ((Resolution.inOrganization "a" "u").runIn
        ((Roles.setPermissions "aa" (some "a") ["docs:read"]).runIn config.world).2).1 =
          .ok [] ∧
      config.world.tables.catalogAvailable = true := by
    rw [hworld]
    decide +kernel
  obtain ⟨hroles, hok, hshown, hheld, havailable⟩ := hended
  obtain ⟨member, hfind, hholds⟩ := Option.map_eq_some_iff.1 hroles
  exact ⟨config, member, _, reaches, havailable, hfind, by simp [hholds], Prod.ext hok rfl, hshown,
    hheld⟩

end Tenancy
