import Tenancy.Proofs.PermissionNames
import Tenancy.Proofs.PermissionSettling

/-!
# Tenancy - Permissions that are set and read back

Setting the permissions of a role at a scope replaces what the role is granted there
and nothing else.  What is read afterwards at the scope are the names that were set,
up to case; setting them again writes nothing.

Main definitions:

- `World.HasAssigned`: worlds before and after permissions were set.
- `World.AssignsPermissions`: what setting permissions does in a world.

Main results:

- Theorem `Roles.setPermissions_ends_refused`, `Roles.setPermissions_ends_known`,
  `Roles.setPermissions_ends_unknown`: what setting permissions comes to.
- Theorem `Tables.Settled.hasAssigned`: what was set is read back.
- Theorem `assignsPermissions_of_reaches`: setting permissions is a round trip in every
  reachable world.
-/

namespace Tenancy

/-! ## Where permissions may be set -/

namespace Roles

variable {world : World} {role : Role} {scope tenantId : Option String}

/-- Where a role may be granted permissions, the check gives the tenant of the scope. -/
theorem runIn_scopeTenant (grantable : world.tables.Grantable role scope tenantId)
    (roleId : String) : (scopeTenant role roleId scope).runIn world = (.ok tenantId, world) := by
  cases grantable with
  | everywhere template =>
      unfold scopeTenant
      rw [template]
      rfl
  | inOrganization found fits =>
      refine (Action.runIn_bind_ok (Action.runIn_loadOrganization found) _).trans ?_
      rw [fits]
      rfl

/-- Elsewhere the check fails, and not for a failure of the store. -/
theorem runIn_scopeTenant_error
    (hnot : ∀ tenantId, ¬world.tables.Grantable role scope tenantId) (roleId : String) :
    ∃ error, (scopeTenant role roleId scope).runIn world = (.error error, world) ∧
      ∀ failure, error ≠ .storage failure := by
  cases scope with
  | none =>
      have htemplate : role.isTemplate = false := by
        rw [← Bool.not_eq_true]
        exact fun template => hnot _ (.everywhere template)
      refine ⟨.roleOutOfScope roleId "global", ?_, nofun⟩
      unfold scopeTenant
      rw [htemplate]
      rfl
  | some organizationId =>
      cases hfind : world.tables.organizations.find? (·.id == organizationId) with
      | none =>
          refine ⟨.organizationMissing organizationId, ?_, nofun⟩
          unfold scopeTenant
          rw [Action.runIn_bind, Action.runIn_loadOrganization_none hfind]
      | some org =>
          have hfits : role.fits org = false := by
            rw [← Bool.not_eq_true]
            exact fun fits => hnot _ (.inOrganization hfind fits)
          refine ⟨.roleOutOfScope roleId organizationId, ?_, nofun⟩
          refine (Action.runIn_bind_ok (Action.runIn_loadOrganization hfind) _).trans ?_
          rw [hfits]
          rfl

/-- Where a role may be granted permissions, they are read for the tenant of the scope. -/
theorem runIn_viewTenant (grantable : world.tables.Grantable role scope tenantId) :
    (viewTenant role scope).runIn world = (.ok tenantId, world) := by
  cases grantable with
  | everywhere => rfl
  | inOrganization found => exact Action.runIn_bind_ok (Action.runIn_loadOrganization found) _

/-! ## Which permissions are wanted -/

/-- With an available catalog, looking up names answers for each name as the catalog would. -/
theorem runIn_idsForNames (havailable : world.tables.catalogAvailable = true)
    (names : List String) :
    (Action.ask (.catalog (.idsForNames names))).runIn world =
      (.ok (Tables.idsForNames world.tables.catalog names), world) := by
  refine Action.runIn_read rfl ?_
  simp only [Tables.perform, Tables.performCatalog, havailable, if_true]

/-- With an available catalog, known names give the wanted permissions. -/
theorem runIn_wantedIds (havailable : world.tables.catalogAvailable = true) {names : List String}
    (hknown : ∀ name ∈ Permission.normalize names,
      ¬Permission.IsUnknown world.tables.catalog name) :
    (wantedIds (Permission.normalize names)).runIn world =
      (.ok (Permission.wantedIds world.tables.catalog names), world) := by
  unfold wantedIds Permission.wantedIds
  generalize Permission.normalize names = names at *
  split
  · rename_i hempty
    rw [List.isEmpty_iff.1 hempty]
    rfl
  · refine (Action.runIn_bind_ok (runIn_idsForNames havailable names) _).trans ?_
    rw [resolveNames_eq_ok fun name hmem => ?_]
    · have hfound : (names.map Text.lowercase).filterMap (fun key =>
          (Tables.idsForNames world.tables.catalog names).lookup key) =
          (names.map Text.lowercase).filterMap (Permission.idUnder world.tables.catalog) := by
        refine List.filterMap_congr fun key hkey => ?_
        obtain ⟨name, hmem, rfl⟩ := List.mem_map.1 hkey
        exact Tables.lookup_idsForNames hmem
      rw [hfound]
      rfl
    · rw [Tables.lookup_idsForNames hmem]
      exact fun hnone => hknown name hmem (Permission.idUnder_eq_none_iff.1 hnone)

/-- With an available catalog, an unknown name refuses them all. -/
theorem runIn_wantedIds_error (havailable : world.tables.catalogAvailable = true)
    {names : List String}
    (hunknown : ∃ name ∈ names, Permission.IsUnknown world.tables.catalog name) :
    ∃ name ∈ names, Permission.IsUnknown world.tables.catalog name ∧
      (wantedIds names).runIn world = (.error (.unknownPermission name), world) := by
  have hsome : ∃ name ∈ names,
      (Tables.idsForNames world.tables.catalog names).lookup (Text.lowercase name) = none := by
    obtain ⟨name, hmem, hnone⟩ := hunknown
    refine ⟨name, hmem, ?_⟩
    rw [Tables.lookup_idsForNames hmem]
    exact Permission.idUnder_eq_none_iff.2 hnone
  obtain ⟨name, hmem, hnone, herror⟩ := resolveNames_eq_error hsome
  rw [Tables.lookup_idsForNames hmem] at hnone
  refine ⟨name, hmem, Permission.idUnder_eq_none_iff.1 hnone, ?_⟩
  have hnonempty : names.isEmpty = false := by
    rw [List.isEmpty_eq_false_iff_exists_mem]
    exact ⟨name, hmem⟩
  unfold wantedIds
  rw [hnonempty]
  refine (Action.runIn_bind_ok (runIn_idsForNames havailable names) _).trans ?_
  rw [herror]
  rfl

/-! ## Setting permissions -/

/-- A stored role is loaded, and nothing is written. -/
theorem load_ends {roleId : String}
    (hrole : world.tables.roles.find? (·.id == roleId) = some role) :
    (load roleId).Ends world (.ok role) world [] :=
  .ofUses (load_uses Effect.plain_reads roleId) (runIn_load hrole)

/-- Without a stored role that may be granted permissions at the scope, setting permissions fails
and writes nothing. -/
theorem setPermissions_ends_refused {roleId : String}
    (hnot : ∀ role tenantId, world.tables.roles.find? (·.id == roleId) = some role →
      ¬world.tables.Grantable role scope tenantId) (names : List String) :
    ∃ error, (setPermissions roleId scope names).Ends world (.error error) world [] := by
  rw [setPermissions_eq]
  cases hrole : world.tables.roles.find? (·.id == roleId) with
  | none =>
      have hload : (load roleId).Ends world (.error (.roleMissing roleId)) world [] :=
        .ofUses (load_uses Effect.plain_reads roleId) (runIn_load_none hrole)
      exact ⟨_, hload.bind_error _⟩
  | some role =>
      obtain ⟨error, herror, -⟩ :=
        runIn_scopeTenant_error (fun tenantId => hnot role tenantId hrole) roleId
      have hplaced : (scopeTenant role roleId scope).Ends world (.error error) world [] :=
        .ofUses (scopeTenant_uses Effect.plain_reads role roleId scope) herror
      exact ⟨error, (load_ends hrole).bind (hplaced.bind_error _)⟩

section Grantable

variable {roleId : String} {names : List String} {result : Except Error Unit} {after : World}
  {writes : List Effect}

/-- Where a stored role may be granted permissions, the names are resolved next. -/
theorem setPermissions_ends (hrole : world.tables.roles.find? (·.id == roleId) = some role)
    (grantable : world.tables.Grantable role scope tenantId)
    (hrest : (do let wanted ← wantedIds (Permission.normalize names)
                 settle role scope tenantId wanted : Action Unit).Ends world result after writes) :
    (setPermissions roleId scope names).Ends world result after writes := by
  have hplaced : (scopeTenant role roleId scope).Ends world (.ok tenantId) world [] :=
    .ofUses (scopeTenant_uses Effect.plain_reads role roleId scope)
      (runIn_scopeTenant grantable roleId)
  rw [setPermissions_eq]
  exact (load_ends hrole).bind (hplaced.bind hrest)

/-- Known names are settled. -/
theorem setPermissions_ends_known (havailable : world.tables.catalogAvailable = true)
    (hrole : world.tables.roles.find? (·.id == roleId) = some role)
    (grantable : world.tables.Grantable role scope tenantId)
    (hknown : ∀ name ∈ Permission.normalize names,
      ¬Permission.IsUnknown world.tables.catalog name)
    (hsettle : (settle role scope tenantId
      (Permission.wantedIds world.tables.catalog names)).Ends world result after writes) :
    (setPermissions roleId scope names).Ends world result after writes := by
  have hwanted : (wantedIds (Permission.normalize names)).Ends world
      (.ok (Permission.wantedIds world.tables.catalog names)) world [] :=
    .ofUses (wantedIds_uses Effect.plain_reads _) (runIn_wantedIds havailable hknown)
  exact setPermissions_ends hrole grantable (hwanted.bind hsettle)

/-- An unknown name is refused, and nothing is written. -/
theorem setPermissions_ends_unknown (havailable : world.tables.catalogAvailable = true)
    (hrole : world.tables.roles.find? (·.id == roleId) = some role)
    (grantable : world.tables.Grantable role scope tenantId)
    (hunknown : ∃ name ∈ Permission.normalize names,
      Permission.IsUnknown world.tables.catalog name) :
    ∃ name ∈ Permission.normalize names, Permission.IsUnknown world.tables.catalog name ∧
      (setPermissions roleId scope names).Ends world (.error (.unknownPermission name)) world
        [] := by
  obtain ⟨name, hmem, hnone, herror⟩ := runIn_wantedIds_error havailable hunknown
  have hwanted : (wantedIds (Permission.normalize names)).Ends world
      (.error (.unknownPermission name)) world [] :=
    .ofUses (wantedIds_uses Effect.plain_reads _) herror
  exact ⟨name, hmem, hnone, setPermissions_ends hrole grantable (hwanted.bind_error _)⟩

end Grantable
end Roles

/-! ## Reading permissions back -/

/-- Between two worlds a role was given permissions by name at a scope: they are what is read there,
nothing else has changed, and giving them again in any order and case changes and writes nothing. -/
structure World.HasAssigned (before after : World) (roleId : String) (scope : Option String)
    (names : List String) : Prop where
  shown : ∃ shown, (Roles.permissions roleId scope).runIn after = (.ok shown, after) ∧
    shown.explicit.map Text.lowercase = (Permission.normalize names).map Text.lowercase
  frame : after.tables = { before.tables with
    grants := after.tables.grants, grantWrites := after.tables.grantWrites }
  others : after.tables.grants.filter
      (fun grant => !(grant.roleId == roleId && grant.organizationId == scope)) =
    before.tables.grants.filter
      (fun grant => !(grant.roleId == roleId && grant.organizationId == scope))
  surviving : ∀ old ∈ before.tables.grantsAt roleId scope,
    ∀ new ∈ after.tables.grantsAt roleId scope, new.permissionId = old.permissionId → new = old
  again : ∀ names', (∀ key, key ∈ (Text.trimmedTexts names').map Text.lowercase ↔
      key ∈ (Text.trimmedTexts names).map Text.lowercase) →
    (Roles.setPermissions roleId scope names').runIn after = (.ok (), after) ∧
      (Roles.setPermissions roleId scope names').writesIn after = []

section ReadBack

variable {role : Role} {scope tenantId : Option String} {names : List String}

/-- The permissions shown as given at the scope itself are those that are assigned there. -/
theorem Tables.IsSoundAt.explicit_eq {world : World}
    (sound : world.tables.IsSoundAt role.id scope tenantId) :
    (Grant.splitByScope (world.tables.grants.filter ([role.id].contains ·.roleId)) role scope
      tenantId).explicit = world.tables.assignedAt role.id scope := by
  rw [assignedAt, ← Roles.filter_isGrantAt sound]
  simp only [Grant.splitByScope, List.filter_filter]
  refine congrArg _ (List.filter_congr fun grant _ => ?_)
  rw [Bool.eq_iff_iff]
  simp only [Roles.isGrantAt, Bool.and_eq_true]
  tauto

/-- What is wanted depends on the trimmed names up to case only. -/
theorem Permission.wantedIds_congr {names' : List String} (catalog : List (String × String))
    (hsame : ∀ key, key ∈ (Text.trimmedTexts names').map Text.lowercase ↔
      key ∈ (Text.trimmedTexts names).map Text.lowercase) :
    wantedIds catalog names' = wantedIds catalog names := by
  rw [wantedIds, wantedIds, lowercase_normalize_ext hsame]

/-- Names that differ from known ones by case only are known. -/
theorem Permission.known_congr {names' : List String} {catalog : List (String × String)}
    (hsame : ∀ key, key ∈ (Text.trimmedTexts names').map Text.lowercase ↔
      key ∈ (Text.trimmedTexts names).map Text.lowercase)
    (hknown : ∀ name ∈ normalize names, ¬IsUnknown catalog name) :
    ∀ name ∈ normalize names', ¬IsUnknown catalog name := by
  intro name hmem hunknown
  have hkey : Text.lowercase name ∈ (normalize names).map Text.lowercase := by
    rw [← lowercase_normalize_ext hsame]
    exact List.mem_map_of_mem hmem
  obtain ⟨other, hother, hlower⟩ := List.mem_map.1 hkey
  refine hknown other hother fun entry hentry => ?_
  rw [hlower]
  exact hunknown entry hentry

/-- Where the grants at a scope were replaced by those of named permissions, the names are read
back. -/
theorem Tables.Settled.hasAssigned {before after : World}
    (settled : Settled before.tables after.tables role.id scope tenantId
      (Permission.wantedIds before.tables.catalog names))
    (sound : before.tables.IsSoundAt role.id scope tenantId)
    (havailable : before.tables.catalogAvailable = true)
    (keyed : (before.tables.catalog.map (·.1)).Nodup)
    (hrole : before.tables.roles.find? (·.id == role.id) = some role)
    (grantable : before.tables.Grantable role scope tenantId)
    (hknown : ∀ name ∈ Permission.normalize names,
      ¬Permission.IsUnknown before.tables.catalog name) :
    before.HasAssigned after role.id scope names := by
  have hroles : after.tables.roles = before.tables.roles := by rw [settled.frame]
  have hcatalog : after.tables.catalog = before.tables.catalog := by rw [settled.frame]
  have hopen : after.tables.catalogAvailable = true := by
    rw [settled.frame]
    exact havailable
  have grantableAfter : after.tables.Grantable role scope tenantId := by
    rw [settled.frame]
    cases grantable with
    | everywhere template => exact .everywhere template
    | inOrganization found fits => exact .inOrganization found fits
  have soundAfter := settled.isSoundAt sound (Permission.nodup_wantedIds names)
  rw [← hroles] at hrole
  constructor
  case shown =>
    refine ⟨_, Roles.runIn_permissions_at hopen hrole (Roles.runIn_viewTenant grantableAfter) rfl,
      ?_⟩
    rw [hcatalog]
    refine Permission.lowercase_normalize_namesOf keyed hknown fun permissionId => ?_
    rw [soundAfter.explicit_eq]
    exact settled.mem_assignedAt
  case frame => exact settled.frame
  case others => exact settled.others
  case surviving =>
    intro old hold new hnew hsame
    exact settled.eq_of_survives sound hold hnew hsame
  case again =>
    intro names' hsame
    have hsameWanted : ∀ permissionId, permissionId ∈ after.tables.assignedAt role.id scope ↔
        permissionId ∈ Permission.wantedIds after.tables.catalog names' := by
      intro permissionId
      rw [settled.mem_assignedAt, hcatalog, Permission.wantedIds_congr _ hsame]
    obtain ⟨result, last, writes, hends, -, hidle, -⟩ := Roles.settle_settles soundAfter
      (Permission.wantedIds after.tables.catalog names')
    obtain ⟨rfl, rfl, rfl⟩ := hidle hsameWanted
    rw [← hcatalog] at hknown
    have hagain := Roles.setPermissions_ends_known hopen hrole grantableAfter
      (Permission.known_congr hsame hknown) hends
    exact ⟨hagain.run, hagain.writes⟩

end ReadBack

/-! ## Every reachable world -/

/-- Giving a role permissions by name at a scope, in a world: this writes at most once and not at
all if they are assigned already; after a success they are read back; and a name that the catalog
does not know is refused with the world as it was. -/
structure World.AssignsPermissions (world : World) (roleId : String) (scope : Option String)
    (names : List String) : Prop where
  once : ((Roles.setPermissions roleId scope names).writesIn world).length ≤ 1
  idle : (∀ permissionId, permissionId ∈ world.tables.assignedAt roleId scope ↔
      permissionId ∈ Permission.wantedIds world.tables.catalog names) →
    (Roles.setPermissions roleId scope names).writesIn world = []
  roundTrip : ∀ after, (Roles.setPermissions roleId scope names).runIn world = (.ok (), after) →
    world.HasAssigned after roleId scope names
  unknown : ∀ role tenantId, world.tables.roles.find? (·.id == roleId) = some role →
    world.tables.Grantable role scope tenantId →
    (∃ name ∈ Text.trimmedTexts names, Permission.IsUnknown world.tables.catalog name) →
    ∃ name ∈ Text.trimmedTexts names, Permission.IsUnknown world.tables.catalog name ∧
      (Roles.setPermissions roleId scope names).runIn world =
        (.error (.unknownPermission name), world)

namespace World.AssignsPermissions

variable {world : World} {roleId : String} {scope : Option String} {names : List String}

/-- A run that fails, writes nothing and leaves the world as it was assigns permissions correctly,
given that it reports an unknown name if there is one. -/
theorem of_ends_error {error : Error}
    (hends : (Roles.setPermissions roleId scope names).Ends world (.error error) world [])
    (hunknown : ∀ role tenantId, world.tables.roles.find? (·.id == roleId) = some role →
      world.tables.Grantable role scope tenantId →
      (∃ name ∈ Text.trimmedTexts names, Permission.IsUnknown world.tables.catalog name) →
      ∃ name ∈ Text.trimmedTexts names, Permission.IsUnknown world.tables.catalog name ∧
        error = .unknownPermission name) : world.AssignsPermissions roleId scope names where
  once := by
    rw [hends.writes]
    exact Nat.zero_le 1
  idle _ := hends.writes
  roundTrip after hok := by
    rw [hends.run] at hok
    cases hok
  unknown role tenantId hrole grantable hsome := by
    obtain ⟨name, hmem, hnone, rfl⟩ := hunknown role tenantId hrole grantable hsome
    exact ⟨name, hmem, hnone, hends.run⟩

/-- Where the role may not be granted permissions at the scope, they are refused. -/
theorem of_not_grantable
    (hnot : ∀ role tenantId, world.tables.roles.find? (·.id == roleId) = some role →
      ¬world.tables.Grantable role scope tenantId) :
    world.AssignsPermissions roleId scope names := by
  obtain ⟨error, hends⟩ := Roles.setPermissions_ends_refused hnot names
  exact of_ends_error hends fun role tenantId hrole grantable _ =>
    absurd grantable (hnot role tenantId hrole)

variable {role : Role} {tenantId : Option String}

/-- Names of which one is unknown are refused. -/
theorem of_unknown (havailable : world.tables.catalogAvailable = true)
    (hrole : world.tables.roles.find? (·.id == roleId) = some role)
    (grantable : world.tables.Grantable role scope tenantId)
    (hunknown : ∃ name ∈ Permission.normalize names,
      Permission.IsUnknown world.tables.catalog name) :
    world.AssignsPermissions roleId scope names := by
  obtain ⟨name, hmem, hnone, hends⟩ :=
    Roles.setPermissions_ends_unknown havailable hrole grantable hunknown
  exact of_ends_error hends fun _ _ _ _ _ =>
    ⟨name, Permission.mem_trimmedTexts_of_mem_normalize hmem, hnone, rfl⟩

/-- Known names are settled at a scope where the grants are sound. -/
theorem of_known (sound : world.tables.IsSoundAt role.id scope tenantId)
    (havailable : world.tables.catalogAvailable = true)
    (keyed : (world.tables.catalog.map (·.1)).Nodup)
    (hrole : world.tables.roles.find? (·.id == role.id) = some role)
    (grantable : world.tables.Grantable role scope tenantId)
    (hknown : ∀ name ∈ Permission.normalize names,
      ¬Permission.IsUnknown world.tables.catalog name) :
    world.AssignsPermissions role.id scope names := by
  obtain ⟨result, last, writes, hsettle, honce, hidle, hsettled⟩ := Roles.settle_settles sound
    (Permission.wantedIds world.tables.catalog names)
  have hends := Roles.setPermissions_ends_known havailable hrole grantable hknown hsettle
  constructor
  case once =>
    rw [hends.writes]
    exact honce
  case idle =>
    intro hsame
    rw [hends.writes]
    exact (hidle hsame).2.2
  case roundTrip =>
    intro after hok
    rw [hends.run] at hok
    obtain ⟨hresult, rfl⟩ := Prod.ext_iff.1 hok
    exact (hsettled hresult).hasAssigned sound havailable keyed hrole grantable hknown
  case unknown =>
    rintro _ _ _ _ ⟨name, hmem, hnone⟩
    obtain ⟨kept, hkept, hlower⟩ := Permission.exists_mem_normalize hmem
    refine absurd (fun entry hentry => ?_) (hknown kept hkept)
    rw [hlower]
    exact hnone entry hentry

end World.AssignsPermissions

/-- In every reachable world with an available catalog, which is a map from ids to names,
permissions that were given to a role by name at a scope are read back there. -/
theorem assignsPermissions_of_reaches {regime : Regime} {world : World} {config : Configuration}
    (starts : regime.Starts world) (reaches : regime.Reaches world config)
    (distinct : ∀ world, regime.admits world → world.supply.DistinctIds)
    (havailable : config.world.tables.catalogAvailable = true)
    (keyed : (config.world.tables.catalog.map (·.1)).Nodup) (roleId : String)
    (scope : Option String) (names : List String) :
    config.world.AssignsPermissions roleId scope names := by
  obtain ⟨ledger, describes⟩ := reaches.described starts distinct
  have keys := reaches.hasDistinctKeys starts
  have distinctGrants := reaches.hasDistinctGrants starts
  generalize config.world = world at *
  by_cases hgrantable : ∃ role tenantId, world.tables.roles.find? (·.id == roleId) = some role ∧
      world.tables.Grantable role scope tenantId
  · obtain ⟨role, tenantId, hrole, grantable⟩ := hgrantable
    have hid : role.id = roleId := Tables.key_of_find hrole
    subst hid
    have sound :=
      describes.isSoundAt keys distinctGrants (List.mem_of_find?_eq_some hrole) grantable
    by_cases hunknown : ∃ name ∈ Permission.normalize names,
        Permission.IsUnknown world.tables.catalog name
    · exact .of_unknown havailable hrole grantable hunknown
    · exact .of_known sound havailable keyed hrole grantable fun name hmem hnone =>
        hunknown ⟨name, hmem, hnone⟩
  · exact .of_not_grantable fun role tenantId hrole grantable =>
      hgrantable ⟨role, tenantId, hrole, grantable⟩

/-- A role that may write is to read instead, in an organization whose template reads. -/
theorem assignsPermissions_of_reaches_read_for_write :
    ∃ config after,
      Regime.orderly.Reaches
        (World.blank [("p1", "Docs:Read"), ("p2", "docs:write"), ("p3", "audit")]) config ∧
      config.world.tables.grants.map (·.permissionId) = ["p1", "p2"] ∧
      (Roles.setPermissions "aaa" (some "a") [" DOCS:read", "docs:Read"]).runIn config.world =
        (.ok (), after) ∧
      after.tables.grants.map (·.permissionId) = ["p1", "p1"] ∧
      config.world.AssignsPermissions "aaa" (some "a") [" DOCS:read", "docs:Read"] := by
  have starts : Regime.orderly.Starts
      (World.blank [("p1", "Docs:Read"), ("p2", "docs:write"), ("p3", "audit")]) :=
    Regime.orderly_starts_blank (by decide +kernel)
  obtain ⟨config, reaches, hworld⟩ := Regime.orderly_operations starts default
    [.createOrganization
      { slug := "north", displayName := "North", tenantId := none, metadata := .empty },
     .createRole
      { name := "reader", description := none, isSystem := false, organizationId := none
        tenantId := none },
     .createRole
      { name := "writer", description := none, isSystem := false, organizationId := some "a"
        tenantId := none },
     .setRolePermissions "aa" none ["docs:read"],
     .setRolePermissions "aaa" (some "a") ["docs:write"]]
  have hended : config.world.tables.grants.map (·.permissionId) = ["p1", "p2"] ∧
      ((Roles.setPermissions "aaa" (some "a") [" DOCS:read", "docs:Read"]).runIn
        config.world).1 = .ok () ∧
      ((Roles.setPermissions "aaa" (some "a") [" DOCS:read", "docs:Read"]).runIn
        config.world).2.tables.grants.map (·.permissionId) = ["p1", "p1"] ∧
      config.world.tables.catalogAvailable = true ∧
      (config.world.tables.catalog.map (·.1)).Nodup := by
    rw [hworld]
    decide +kernel
  obtain ⟨hbefore, hok, hafter, havailable, keyed⟩ := hended
  exact ⟨config, _, reaches, hbefore, Prod.ext hok rfl, hafter,
    assignsPermissions_of_reaches starts reaches (fun _ orderly => orderly.distinctIds) havailable
      keyed "aaa" (some "a") [" DOCS:read", "docs:Read"]⟩

end Tenancy
