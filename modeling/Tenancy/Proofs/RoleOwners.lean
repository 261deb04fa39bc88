import Tenancy.Proofs.LedgerOperations
import Tenancy.Proofs.StoredRecords

/-!
# Tenancy - Roles that belong to an organization

A role that belongs to an organization has the organization's tenant.  No write
checks this: a new role takes the tenant that its organization was read with, which
may have been some time before, and a renamed role is written back with the tenant
that it was read with.

Main definitions:

- `Ledger.Owns`: a role has the tenant that the ledger knows for its organization.
- `Ledger.ownersPact`: the pact that says so of all stored roles.

Main results:

- Theorem `Operation.action_owners`: every operation upholds the pact beside that of
  the ledger.
- Theorem `Regime.Reaches.tenantId_of_owned`: in every reachable world, a role has the
  tenant of its organization.
- Theorem `Tables.isListedFor_eq_fits`: so an organization may assign exactly the roles
  that are listed for it.
-/

namespace Tenancy

/-! ## The pact of owners -/

namespace Ledger

variable {known : Ledger}

/-- A role has the tenant of the organization that it belongs to, if it belongs to one. -/
def Owns (ledger : Ledger) (role : Role) : Prop :=
  ∀ organizationId, role.organizationId = some organizationId →
    ledger.tenantOf organizationId = some role.tenantId

theorem Owns.later {ledger grown : Ledger} (hle : ledger ≤ grown) {role : Role}
    (howns : ledger.Owns role) : grown.Owns role :=
  fun organizationId howner => tenantOf_of_le hle (howns organizationId howner)

/-- The pact of owners: every stored role has the tenant of its organization. -/
def ownersPact : Pact Ledger where
  admits _ := True
  holds ledger world := ∀ role ∈ world.tables.roles, ledger.Owns role
  quiet {_ _ world} hread howns := by
    rw [world.perform_tables_of_not_write hread]
    exact howns
  shift howns := howns

/-- The pact of the ledger together with that of owners. -/
def fullPact : Pact Ledger :=
  pact.and ownersPact

/-- A call that creates or updates no role keeps the pact of owners. -/
theorem keepsBeside_call {call : Call}
    (hnone : ∀ role, call ≠ .roles (.create role) ∧ call ≠ .roles (.update role)) :
    pact.KeepsBeside ownersPact (.store call) := by
  intro known grown world hle _ howns role hrole
  rcases Tables.mem_roles_perform hrole with hold | hcreated | hupdated
  · exact (howns role hold).later hle
  · exact absurd hcreated (hnone role).1
  · exact absurd hupdated (hnone role).2

/-- A request that is no write keeps the pact of owners. -/
theorem keepsBeside_quiet (effect : Effect) (hread : effect.isWrite = false) :
    pact.KeepsBeside ownersPact effect := by
  cases effect with
  | store call =>
      refine keepsBeside_call fun role => ⟨?_, ?_⟩ <;>
      · rintro rfl
        cases hread
  | clock | freshId | randomBytes | note =>
      exact fun _ _ _ hle _ howns role hrole => (howns role hrole).later hle

/-- Requests that are no writes keep both pacts. -/
theorem quiet_full (effect : Effect) (hread : effect.isWrite = false) : fullPact.Keeps effect :=
  fullPact.keeps_quiet effect hread

/-- A role may be created or updated if the ledger permits it and it has the tenant of its
organization. -/
theorem writeRole_upholds (call : RoleCall) (hpermits : known.Permits (.roles call))
    (howns : ∀ role, call = .create role ∨ call = .update role → known.Owns role) :
    (Action.ask (.roles call)).Upholds fullPact (fun _ _ => True) known := by
  refine .ask fun later world hlater holds _ => ?_
  obtain ⟨describes, howners⟩ := holds
  refine ⟨later, le_rfl, ⟨?_, ?_⟩, fun _ _ _ _ => trivial⟩
  · exact Describes.writeRole describes (hpermits.later hlater)
  · intro role hrole
    change role ∈ (world.tables.perform (.roles call)).2.roles at hrole
    rcases Tables.mem_roles_perform hrole with hold | hcreated | hupdated
    · exact howners role hold
    · exact (howns role (.inl (Call.roles.inj hcreated))).later hlater
    · exact (howns role (.inr (Call.roles.inj hupdated))).later hlater

end Ledger

/-! ## Creating and updating roles -/

open Ledger

variable {known : Ledger}

/-- The tenant of a new role is that of its organization. -/
theorem Roles.draftTenant_upholds (draft : Role.Draft) :
    (Roles.draftTenant draft).Upholds pact (fun later tenantId =>
      ∀ organizationId, draft.organizationId = some organizationId →
        later.tenantOf organizationId = some tenantId) known := by
  unfold Roles.draftTenant
  split
  · rename_i hnone
    refine .pure fun later _ organizationId howner => ?_
    rw [hnone] at howner
    cases howner
  · rename_i organizationId hsome
    refine .bind (Action.loadOrganization_upholds organizationId) fun loaded _ org horg => ?_
    obtain ⟨rfl, htenant⟩ := horg
    unfold Roles.tenantFor
    split
    · refine .pure fun later hlater owner howner => ?_
      rw [hsome] at howner
      rw [← Option.some.inj howner]
      exact tenantOf_of_le hlater htenant
    · split
      · rename_i tenantId _ hsame
        refine .pure fun later hlater owner howner => ?_
        rw [hsome] at howner
        rw [← Option.some.inj howner, ← hsame]
        exact tenantOf_of_le hlater htenant
      · exact .throw _

/-- A new role has the tenant of its organization. -/
theorem Roles.create_owners (limits : Limits) (draft : Role.Draft) :
    (Roles.create limits draft).Upholds fullPact (fun _ _ => True) known := by
  refine .check fun name _ => .check fun description _ => ?_
  refine .bind ((Roles.draftTenant_upholds draft).beside
    (Roles.draftTenant_uses (Effect.plain keepsBeside_quiet) draft))
    fun placed _ tenantId htenant => ?_
  refine .afterUses (.ask (quiet_full _ rfl)) fun looked hlooked sameName _ => .require fun _ => ?_
  refine .afterUses (.now (quiet_full _ rfl)) fun timed htimed now _ => ?_
  refine .bind ((freshId_upholds ⟨draft.organizationId, tenantId⟩).beside
    (.freshId (keepsBeside_quiet _ rfl))) fun drawn hdrawn id hid => ?_
  refine .bind (writeRole_upholds (.create _) hid fun role hrole => ?_) fun _ _ _ _ =>
    .afterUses (.note (quiet_full _ rfl)) fun _ _ _ _ => .pure fun _ _ => trivial
  rcases hrole with hrole | hrole
  · rw [← RoleCall.create.inj hrole]
    exact fun owner howner =>
      tenantOf_of_le (hlooked.trans (htimed.trans hdrawn)) (htenant owner howner)
  · cases hrole

/-- A role that was loaded keeps its scope, and has the tenant of its organization. -/
theorem Roles.load_owners (roleId : String) :
    (Roles.load roleId).Upholds fullPact
      (fun later role => later.scopeOf role.id = some role.scope ∧ later.Owns role) known := by
  refine .mono (Roles.load_reads
    (fun later role => later.scopeOf role.id = some role.scope ∧ later.Owns role) ?_ ?_ roleId) ?_
  · intro later world holds role hrole
    obtain ⟨describes, howns⟩ := holds
    exact ⟨Describes.scopes describes role hrole, howns role hrole⟩
  · intro later grown role hle hread
    exact ⟨scopeOf_of_le hle hread.1, hread.2.later hle⟩
  · exact fun _ _ hread => hread.2

/-- A renamed role has the tenant of its organization. -/
theorem Roles.update_owners (limits : Limits) (roleId : String) (patch : Role.Patch) :
    (Roles.update limits roleId patch).Upholds fullPact (fun _ _ => True) known := by
  refine .bind (Roles.load_owners roleId) fun loaded _ role hrole => ?_
  refine .afterUses (Roles.patchedName_uses (Effect.plain quiet_full) limits role patch.name)
    fun named hnamed name _ =>
    .afterUses (Roles.patchedDescription_uses limits role patch.description)
      fun described hdescribed description _ => ?_
  split
  · exact .pure fun _ _ => trivial
  · refine .afterUses (.now (quiet_full _ rfl)) fun timed htimed now _ => ?_
    have hle : loaded ≤ timed := hnamed.trans (hdescribed.trans htimed)
    refine .bind (writeRole_upholds (.update _) (scopeOf_of_le hle hrole.1) fun changed hchanged =>
      ?_) fun _ _ _ _ => .afterUses (.note (quiet_full _ rfl)) fun _ _ _ _ =>
        .pure fun _ _ => trivial
    rcases hchanged with hchanged | hchanged
    · cases hchanged
    · rw [← RoleCall.update.inj hchanged]
      exact hrole.2.later hle

/-! ## All operations -/

/-- Every operation upholds the pact of owners beside that of the ledger. -/
theorem Operation.action_owners (deployment : Deployment) (operation : Operation) :
    (operation.action deployment).Upholds fullPact (fun _ _ => True) known := by
  have hothers : (∀ role, ¬operation.MayWrite (.roles (.create role)) ∧
        ¬operation.MayWrite (.roles (.update role))) →
      (operation.action deployment).Upholds fullPact (fun _ _ => True) known := by
    intro hnone
    refine (Operation.action_upholds deployment operation).beside
      ((operation.action_uses deployment).weaken fun effect hmay => ?_)
    cases effect with
    | store call =>
        refine keepsBeside_call fun role => ⟨?_, ?_⟩
        · rintro rfl
          exact (hnone role).1 (hmay rfl)
        · rintro rfl
          exact (hnone role).2 (hmay rfl)
    | clock | freshId | randomBytes | note => exact keepsBeside_quiet _ rfl
  cases operation with
  | createRole draft => exact Roles.create_owners _ draft
  | updateRole roleId patch => exact Roles.update_owners _ roleId patch
  | _ => exact hothers fun _ => ⟨nofun, nofun⟩

/-- In every reachable world the records agree with some ledger, and every role has the tenant that
the ledger knows for its organization. -/
theorem Regime.Reaches.describedWithOwners {regime : Regime} {world : World}
    {config : Configuration} (starts : regime.Starts world) (reaches : regime.Reaches world config)
    (distinct : ∀ world, regime.admits world → world.supply.DistinctIds) :
    ∃ ledger : Ledger, ledger.Describes config.world ∧
      ∀ role ∈ config.world.tables.roles, ledger.Owns role := by
  have begins : fullPact.holds Ledger.empty world := by
    refine ⟨Describes.empty starts.noRecords, fun role hrole => ?_⟩
    rw [starts.noRecords.roles] at hrole
    cases hrole
  have admits : ∀ world, regime.admits world → fullPact.admits world :=
    fun world hadmits => ⟨distinct world hadmits, trivial⟩
  obtain ⟨ledger, holds, -⟩ := reaches.upholds admits begins fun deployment operation known _ =>
    Operation.action_owners deployment operation
  exact ⟨ledger, holds⟩

/-- In every reachable world, a role that belongs to an organization has its tenant. -/
theorem Regime.Reaches.tenantId_of_owned {regime : Regime} {world : World} {config : Configuration}
    (starts : regime.Starts world) (reaches : regime.Reaches world config)
    (distinct : ∀ world, regime.admits world → world.supply.DistinctIds) {role : Role}
    (hrole : role ∈ config.world.tables.roles) {org : Organization}
    (horg : org ∈ config.world.tables.organizations) (howner : role.organizationId = some org.id) :
    role.tenantId = org.tenantId := by
  obtain ⟨ledger, describes, howns⟩ := reaches.describedWithOwners starts distinct
  have hknown := howns role hrole org.id howner
  rw [describes.tenants org horg] at hknown
  exact (Option.some.inj hknown).symm

/-- Where a role has the tenant of its organization, an organization may assign it exactly if it is
listed for the organization. -/
theorem Tables.isListedFor_eq_fits {role : Role} {org : Organization}
    (howned : role.organizationId = some org.id → role.tenantId = org.tenantId) :
    isListedFor org.tenantId org.id role = role.fits org := by
  unfold isListedFor Role.fits
  cases howner : role.organizationId with
  | none =>
      cases role.tenantId with
      | none => rfl
      | some tenantId => rfl
  | some owner =>
      by_cases hsame : owner = org.id
      · subst hsame
        rw [howned howner]
        cases org.tenantId <;> simp
      · simp [hsame]

end Tenancy
