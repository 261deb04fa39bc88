import Tenancy.Proofs.DistinctTitles
import Tenancy.Proofs.OrderlyRuns
import Tenancy.Proofs.RoleBook
import Tenancy.Proofs.RoleOwners

/-!
# Tenancy - The catalog of roles

What roles are like at any time: their names and descriptions are as the checks
demand, names differ within each scope, and a role that belongs to an organization
has the organization's tenant.  What becomes of them: a role that is stored keeps
what it was created with, and a system role stays.

Main definitions:

- `Role.IsSound`: what the checks on requests demand of a role.
- `Tables.HasSoundRoles`: what the roles of a store are like.
- `Tables.RetainsRoles`: what becomes of the roles of a store.

Main results:

- Theorem `Role.IsSound.edited`: an edit of a sound role is sound.
- Theorem `Operation.action_sound_roles`: every operation upholds the pact of sound
  roles.
- Theorem `soundRoles_of_continues`: roles are sound in every reachable world, and are
  retained however the run goes on.
-/

namespace Tenancy

/-! ## Sound roles -/

namespace Role

/-- What is true of every stored role under the limits: its name and its description, if it has one,
are trimmed, not empty and not too long. -/
structure IsSound (limits : Limits) (role : Role) : Prop where
  name : Text.IsTidyWithin limits.roleNameLength role.name
  description : ∀ text, role.description = some text →
    Text.IsTidyWithin limits.roleDescriptionLength text

variable {limits : Limits}

/-- An edit of a sound role with an admitted patch is sound. -/
theorem IsSound.edited {role : Role} {patch : Patch} (sound : role.IsSound limits)
    (admitted : patch.IsAdmitted limits) (now : Nat) : (role.edited patch now).IsSound limits where
  name := by
    change Text.IsTidyWithin limits.roleNameLength (role.patchedName patch)
    unfold patchedName
    cases hname : patch.name with
    | none => exact sound.name
    | some text => exact admitted.name text hname
  description := by
    intro kept hkept
    change role.patchedDescription patch = some kept at hkept
    unfold patchedDescription at hkept
    cases hdescription : patch.description with
    | none =>
        rw [hdescription] at hkept
        exact sound.description kept hkept
    | some text =>
        rw [hdescription] at hkept
        obtain ⟨⟨⟩, hne⟩ := Option.filter_eq_some_iff.1 hkept
        exact admitted.description text hdescription (by simpa using hne)

/-- The pact of sound roles. -/
def soundPact (limits : Limits) : Pact Unit :=
  Role.shelf.pact (fun _ => True) fun _ role => role.IsSound limits

/-- A sound role may be stored as a new one. -/
theorem soundPact_keeps_create {role : Role} (sound : role.IsSound limits) :
    (soundPact limits).Keeps (.store (.roles (.create role))) := by
  refine Shelf.keeps_call ?_
  rintro _ _ (⟨⟨⟩⟩ | ⟨⟨⟩⟩)
  exact sound

/-- A sound role may be written in place of another. -/
theorem soundPact_keeps_update {role : Role} (sound : role.IsSound limits) :
    (soundPact limits).Keeps (.store (.roles (.update role))) := by
  refine Shelf.keeps_call ?_
  rintro _ _ (⟨⟨⟩⟩ | ⟨⟨⟩⟩)
  exact sound

end Role

open Role

variable {limits : Limits}

/-- A new role is sound. -/
theorem Roles.create_sound (draft : Role.Draft) :
    (Roles.create limits draft).Uses (soundPact limits).Keeps fun _ => True := by
  have quiet := (soundPact limits).keeps_quiet
  refine .bind (.checked _) fun name hname => .bind (.checked _) fun description hdescription =>
    .andThen (Roles.draftTenant_uses (Effect.plain quiet) draft) fun tenantId => ?_
  refine .andThen (.ask (quiet _ rfl)) fun sameName => .andThen (.require _ _) fun _ => ?_
  refine .andThen (.now (quiet _ rfl)) fun now => .andThen (.freshId (quiet _ rfl)) fun id => ?_
  refine .andThen (.ask (soundPact_keeps_create ?_)) fun _ => .andThen (.note (quiet _ rfl))
    fun _ => .pure trivial
  exact
    { name := (checkName_eq_ok_iff.1 hname).2
      description := (Limits.checkDescription_eq_ok_iff.1 hdescription).2 }

/-- An updated role is sound. -/
theorem Roles.update_sound (roleId : String) (patch : Role.Patch) {known : Unit} :
    (Roles.update limits roleId patch).Upholds (soundPact limits) (fun _ _ => True) known := by
  have hload : (Roles.load roleId).Upholds (soundPact limits)
      (fun _ role => role.IsSound limits) known :=
    .mono (Roles.load_reads (fun _ role => role.IsSound limits)
      (fun _ _ holds => holds) (fun _ sound => sound) roleId) fun _ _ hread => hread.2
  refine Roles.update_upholds_of hload (fun _ sound => sound) ?_
  intro _ role now sound admitted later world _ holds
  exact soundPact_keeps_update (sound.edited admitted now) later world holds

/-- Every operation under the limits upholds the pact of sound roles. -/
theorem Operation.action_sound_roles {deployment : Deployment}
    (deployed : deployment.limits = limits) (operation : Operation) (known : Unit) :
    (operation.action deployment).Upholds (soundPact limits) (fun _ _ => True) known := by
  subst deployed
  cases operation with
  | createRole draft => exact .ofUses (Roles.create_sound draft)
  | updateRole roleId patch => exact Roles.update_sound roleId patch
  | _ =>
      refine Operation.upholds_of_writes _ _ fun call hmay => Shelf.keeps_call fun _ role hstored => ?_
      rcases hstored with rfl | rfl <;> cases hmay

/-! ## The catalog -/

/-- Every role is sound, no two roles have the same name at the same scope, and a role that belongs
to an organization has the tenant of this organization, which exists. -/
structure Tables.HasSoundRoles (limits : Limits) (tables : Tables) : Prop where
  sound : ∀ role ∈ tables.roles, role.IsSound limits
  names : (tables.roles.map Role.title).Nodup
  owners : ∀ role ∈ tables.roles, ∀ organizationId, role.organizationId = some organizationId →
    ∃ org, tables.organizations.find? (·.id == organizationId) = some org ∧
      role.tenantId = org.tenantId

/-- Where a role of a store is in a later one, it has the organization, the tenant, the system flag
and the creation time that it had; and the system roles are all there. -/
structure Tables.RetainsRoles (before after : Tables) : Prop where
  keeps : ∀ role ∈ before.roles, ∀ later ∈ after.roles, later.id = role.id →
    later.organizationId = role.organizationId ∧ later.tenantId = role.tenantId ∧
      later.isSystem = role.isSystem ∧ later.createdAt = role.createdAt
  stays : ∀ role ∈ before.roles, role.isSystem = true → role.id ∈ after.roles.map (·.id)

variable {regime : Regime} {world : World}

/-- In every reachable world, roles are sound. -/
theorem Regime.Reaches.soundRoles {config : Configuration} (starts : regime.Starts world)
    (deployed : ∀ deployment, regime.deploys deployment → deployment.limits = limits)
    (reaches : regime.Reaches world config) :
    ∀ role ∈ config.world.tables.roles, role.IsSound limits := by
  have begins : (soundPact limits).holds () world := Shelf.begins starts.noRecords
  obtain ⟨_, holds, -⟩ := reaches.upholds (fun _ _ => trivial) begins
    fun deployment operation known hdeploys =>
      Operation.action_sound_roles (deployed deployment hdeploys) operation known
  exact holds

/-- In every reachable world, the organization of a role exists and has the role's tenant. -/
theorem Regime.Reaches.owner_of_role {config : Configuration} (starts : regime.Starts world)
    (reaches : regime.Reaches world config)
    (distinct : ∀ world, regime.admits world → world.supply.DistinctIds) {role : Role}
    (hrole : role ∈ config.world.tables.roles) {organizationId : String}
    (howner : role.organizationId = some organizationId) :
    ∃ org, config.world.tables.organizations.find? (·.id == organizationId) = some org ∧
      role.tenantId = org.tenantId := by
  obtain ⟨ledger, describes, howns⟩ := reaches.describedWithOwners starts distinct
  have htenant := howns role hrole organizationId howner
  obtain ⟨org, horg, rfl⟩ := describes.stored organizationId role.tenantId htenant
  rw [describes.tenants org horg] at htenant
  have hkeys := (reaches.hasDistinctKeys starts).organizations
  exact ⟨org, Tables.find_eq_some_of_mem hkeys horg, (Option.some.inj htenant).symm⟩

/-- What a book says of roles stays true in a larger one. -/
theorem RoleBook.Describes.retains {before after : World} {known grown : RoleBook}
    (hbefore : known.Describes before) (hafter : grown.Describes after) (hle : known ≤ grown) :
    before.tables.RetainsRoles after.tables where
  keeps role hrole later hlater hid := by
    have hentry := (hbefore.recorded role hrole).later hle
    have hrecorded := hafter.recorded later hlater
    unfold RoleBook.Has at hentry hrecorded
    rw [hid, hentry] at hrecorded
    have hidentity : later.identity = role.identity := (Option.some.inj hrecorded).symm
    exact ⟨congrArg Identity.organizationId hidentity, congrArg Identity.tenantId hidentity,
      congrArg Identity.isSystem hidentity, congrArg Identity.createdAt hidentity⟩
  stays role hrole hsystem := by
    obtain ⟨identity, hentry, hstays⟩ :=
      hafter.lasting role.id (hle.2 role.id (hbefore.created role hrole))
    rw [(hbefore.recorded role hrole).later hle] at hentry
    rw [← Option.some.inj hentry] at hstays
    exact hstays hsystem

/-- Under one set of limits and with ids that never repeat, roles are sound however a run goes on,
and it retains them. -/
theorem soundRoles_of_continues {before after : Configuration} (starts : regime.Starts world)
    (deployed : ∀ deployment, regime.deploys deployment → deployment.limits = limits)
    (distinct : ∀ world, regime.admits world → world.supply.DistinctIds)
    (reaches : regime.Reaches world before) (continues : regime.Continues before after) :
    after.world.tables.HasSoundRoles limits ∧
      before.world.tables.RetainsRoles after.world.tables := by
  have onward : regime.Reaches world after := reaches.onward continues
  obtain ⟨known, hbefore⟩ := reaches.booked starts distinct
  obtain ⟨grown, hle, hafter⟩ := continues.booked distinct hbefore
  refine ⟨?_, RoleBook.Describes.retains hbefore.holds hafter.holds hle⟩
  exact
    { sound := onward.soundRoles starts deployed
      names := (onward.hasDistinctTitles starts).roles
      owners := fun role hrole organizationId howner =>
        onward.owner_of_role starts distinct hrole howner }

/-- A system role of an organization is renamed by an update that had read it long before, and another
role is deleted meanwhile: only the system role is left, under its new name. -/
theorem soundRoles_of_continues_rename_and_delete :
    ∃ before after, (Regime.uniform default).Continues before after ∧
      before.world.tables.roles.map (fun role => (role.name, role.isSystem)) =
        [("Owner", true), ("Editor", false)] ∧
      after.world.tables.roles.map (fun role => (role.name, role.isSystem)) = [("Chief", true)] ∧
      after.world.tables.HasSoundRoles .standard ∧
      before.world.tables.RetainsRoles after.world.tables := by
  have starts : (Regime.uniform default).Starts (World.blank []) :=
    Regime.uniform_starts_blank default (by simp)
  obtain ⟨before, reaches, schedule, hbefore, hafter⟩ : ∃ before,
      (Regime.uniform default).Reaches (World.blank []) before ∧ ∃ schedule,
      before.world.tables.roles.map (fun role => (role.name, role.isSystem)) =
        [("Owner", true), ("Editor", false)] ∧
      (schedule.foldl Configuration.advance before).world.tables.roles.map
        (fun role => (role.name, role.isSystem)) = [("Chief", true)] :=
    ⟨_, Regime.uniform_scheduled starts
      [.createOrganization
        { slug := "north", displayName := "North", tenantId := some "t", metadata := .empty },
       .createRole
        { name := " Owner ", description := none, isSystem := true, organizationId := some "a"
          tenantId := none },
       .createRole
        { name := "Editor", description := some " ", isSystem := false, organizationId := none
          tenantId := some "t" },
       .updateRole "aa" { name := some "Chief", description := none },
       .deleteRole "aaa"]
      (List.replicate 6 0 ++ List.replicate 6 1 ++ [3] ++ List.replicate 6 2 ++ [4]),
      [4, 4, 4, 3, 3, 3, 3], by decide +kernel, by decide +kernel⟩
  have continues := Regime.uniform_continues starts reaches [] schedule
  obtain ⟨hsound, hretains⟩ := soundRoles_of_continues starts
    (fun _ hdeploys => congrArg Deployment.limits hdeploys)
    (fun _ hadmits => hadmits.1.distinctIds) reaches continues
  exact ⟨before, _, continues, hbefore, hafter, hsound, hretains⟩

end Tenancy
