import Tenancy.Proofs.KeyedRecords
import Tenancy.Proofs.TidyTexts
import Tenancy.Proofs.Upholding

/-!
# Tenancy - Grants of permissions that the catalog has had

Only permissions of the catalog are ever granted, so a property that its ids have
throughout a run is one that the ids in grants have, also after an entry left the
catalog.  This file follows one such property: ids are tidy.

Main definitions:

- `Tables.HasTidyCatalog`, `Tables.HasTidyGrants`: the permission ids of the
  catalog and of the grants are tidy.
- `Grant.pact`: the pact that says so.

Main results:

- Theorem `Regime.Reaches.hasTidyGrants`: under a tidy catalog, grants are tidy in
  every reachable world.
-/

namespace Tenancy

/-- The permission ids of the catalog are tidy. -/
def Tables.HasTidyCatalog (tables : Tables) : Prop :=
  ∀ entry ∈ tables.catalog, Text.IsTidy entry.1

/-- The permission ids of the grants are tidy. -/
def Tables.HasTidyGrants (tables : Tables) : Prop :=
  ∀ grant ∈ tables.grants, Text.IsTidy grant.permissionId

/-- A call stores no grants but those it adds. -/
theorem Tables.mem_grants_perform {tables : Tables} {call : Call} {grant : Grant}
    (hgrant : grant ∈ (tables.perform call).2.grants) :
    grant ∈ tables.grants ∨
      ∃ added removedIds, call = .roles (.changeGrants added removedIds) ∧ grant ∈ added := by
  have hsame : (tables.perform call).2.grants = tables.grants → grant ∈ tables.grants :=
    fun hgrants => hgrants ▸ hgrant
  cases call with
  | roles call =>
      cases call with
      | changeGrants added removedIds =>
          simp only [perform, performRole] at hgrant
          split at hgrant
          · exact .inl hgrant
          · rename_i grants hadd
            dsimp only at hgrant
            rw [eq_append_of_addGrants hadd] at hgrant
            rcases List.mem_append.1 hgrant with hgrant | hgrant
            · exact .inl (List.mem_of_mem_filter hgrant)
            · exact .inr ⟨added, removedIds, rfl, hgrant⟩
      | delete => exact .inl (List.mem_of_mem_filter hgrant)
      | create | update =>
          simp only [perform, performRole] at hgrant
          split at hgrant <;> try split at hgrant
          all_goals exact .inl hgrant
      | find | findMany | findByName | list | listAssignable | grantsOf => exact .inl hgrant
  | organizations call =>
      obtain ⟨_, hframe⟩ := tables.performOrganization_frame call
      have hgrants : (tables.perform (.organizations call)).2.grants = tables.grants := by
        rw [hframe]
      exact .inl (hsame hgrants)
  | memberships call =>
      obtain ⟨_, _, hframe⟩ := tables.performMembership_frame call
      have hgrants : (tables.perform (.memberships call)).2.grants = tables.grants := by
        rw [hframe]
      exact .inl (hsame hgrants)
  | invitations call =>
      obtain ⟨_, hframe⟩ := tables.performInvitation_frame call
      have hgrants : (tables.perform (.invitations call)).2.grants = tables.grants := by
        rw [hframe]
      exact .inl (hsame hgrants)
  | directory call | catalog call =>
      exact .inl (hsame (congrArg Tables.grants (tables.perform_of_not_write rfl)))

namespace Grant

/-- The pact of tidy grants, for worlds with tidy catalogs. -/
def pact : Pact Unit where
  admits world := world.tables.HasTidyCatalog
  holds _ world := world.tables.HasTidyGrants
  quiet {_ _ world} hread htidy := by
    rw [world.perform_tables_of_not_write hread]
    exact htidy
  shift htidy := htidy

/-- Requests that are no writes keep the pact. -/
theorem quiet (effect : Effect) (hread : effect.isWrite = false) : pact.Keeps effect :=
  pact.keeps_quiet effect hread

/-- A call keeps the pact if the grants it adds are tidy. -/
theorem keeps_call {call : Call}
    (hadded : ∀ added removedIds, call = .roles (.changeGrants added removedIds) →
      ∀ grant ∈ added, Text.IsTidy grant.permissionId) : pact.Keeps (.store call) := by
  intro _ world htidy grant hgrant
  rcases Tables.mem_grants_perform hgrant with hold | ⟨added, removedIds, hcall, hnew⟩
  · exact htidy grant hold
  · exact hadded added removedIds hcall grant hnew

end Grant

/-! ## Setting what a role grants -/

section Roles

open Grant

variable {known : Unit}

/-- The catalog names permissions by tidy ids. -/
theorem Roles.idsForNames_tidy (names : List String) :
    (Action.ask (.catalog (.idsForNames names))).Upholds pact
      (fun _ (found : List (String × String)) => ∀ entry ∈ found, Text.IsTidy entry.2) known := by
  refine @Action.Upholds.read _ _ pact known (.catalog (.idsForNames names)) _ rfl
    fun later world _ _ htidy found hfound last _ entry hentry => ?_
  have hcatalog : world.tables.HasTidyCatalog := by
    have hsame := world.tables.perform_of_not_write
      (show (Call.catalog (.idsForNames names)).isWrite = false from rfl)
    rw [← hsame]
    exact htidy
  simp only [Tables.perform, Tables.performCatalog] at hfound
  split at hfound
  · rw [← Except.ok.inj hfound] at hentry
    obtain ⟨stored, hstored, hkeyed⟩ := List.mem_filterMap.1 hentry
    dsimp only at hkeyed
    split at hkeyed
    · rw [← Option.some.inj hkeyed]
      exact hcatalog stored hstored
    · cases hkeyed
  · cases hfound

/-- The ids of resolved names are among the known ones. -/
theorem Roles.resolveNames_ok {found : List (String × String)} {names ids : List String}
    (hok : Roles.resolveNames found names = .ok ids) :
    ∀ id ∈ ids, ∃ entry ∈ found, entry.2 = id := by
  induction names generalizing ids with
  | nil =>
      rw [← Except.ok.inj hok]
      simp
  | cons name rest ih =>
      unfold Roles.resolveNames at hok
      split at hok
      · cases hok
      · rename_i id hlookup
        cases hrest : Roles.resolveNames found rest with
        | error error => simp [hrest, Except.map] at hok
        | ok others =>
            rw [hrest] at hok
            rw [← Except.ok.inj hok]
            intro other hmem
            rcases List.mem_cons.1 hmem with rfl | hmem
            · obtain ⟨before, after, rfl, -⟩ := List.lookup_eq_some_iff.1 hlookup
              exact ⟨_, List.mem_append_right _ List.mem_cons_self, rfl⟩
            · exact ih hrest other hmem

/-- The wanted permission ids are tidy. -/
theorem Roles.wantedIds_tidy (names : List String) :
    (Roles.wantedIds names).Upholds pact (fun _ wanted => ∀ id ∈ wanted, Text.IsTidy id) known := by
  unfold Roles.wantedIds
  split
  · exact .pure fun _ _ => by simp
  · refine .bind (Roles.idsForNames_tidy names) fun later _ found hfound => ?_
    refine .check fun ids hok => .pure fun _ _ id hid => ?_
    obtain ⟨entry, hentry, rfl⟩ := Roles.resolveNames_ok hok id (Text.mem_keepFirst_id.1 hid)
    exact hfound entry hentry

/-- Setting what a role grants upholds the pact. -/
theorem Roles.setPermissions_tidy (roleId : String) (scope : Option String) (names : List String) :
    (Roles.setPermissions roleId scope names).Upholds pact (fun _ _ => True) known := by
  refine .afterUses (Roles.load_uses (Effect.plain quiet) roleId) fun _ _ role _ =>
    .afterUses (Roles.scopeTenant_uses (Effect.plain quiet) role roleId scope) fun _ _ tenantId _ =>
    .bind (Roles.wantedIds_tidy _) fun _ _ wanted htidy =>
    .afterUses (.ask (quiet _ rfl)) fun _ _ grants _ => ?_
  dsimp only
  generalize Roles.keepWanted wanted [] _ = split
  obtain ⟨kept, removedIds⟩ := split
  refine .afterUses (Roles.newGrants_uses (Effect.plain quiet) role scope tenantId _)
    fun _ _ added hadded => ?_
  split
  · exact .pure fun _ _ => trivial
  · have hkeeps : pact.Keeps (.store (.roles (.changeGrants added removedIds))) := by
      refine keeps_call ?_
      rintro _ _ ⟨⟩ grant hgrant
      exact htidy _ (List.mem_of_mem_filter (hadded grant hgrant).2)
    exact .afterUses (.ask hkeeps) fun _ _ _ _ => .ofUses (.note (quiet _ rfl))

end Roles

/-! ## All operations -/

/-- Every operation upholds the pact of tidy grants. -/
theorem Operation.action_tidy (deployment : Deployment) (operation : Operation) (known : Unit) :
    (operation.action deployment).Upholds Grant.pact (fun _ _ => True) known := by
  cases operation with
  | setRolePermissions roleId scope names => exact Roles.setPermissions_tidy roleId scope names
  | _ =>
      refine Operation.upholds_of_writes _ _ fun call hmay => Grant.keeps_call ?_
      rintro added removedIds rfl
      cases hmay

/-- Under a tidy catalog, grants are tidy in every reachable world. -/
theorem Regime.Reaches.hasTidyGrants {regime : Regime} {world : World} {config : Configuration}
    (starts : regime.Starts world) (reaches : regime.Reaches world config)
    (tidy : ∀ world, regime.admits world → world.tables.HasTidyCatalog) :
    config.world.tables.HasTidyGrants := by
  have begins : Grant.pact.holds () world := by
    intro grant hgrant
    rw [starts.noRecords.grants] at hgrant
    cases hgrant
  obtain ⟨_, htidy, -⟩ := reaches.upholds tidy begins fun deployment operation known _ =>
    operation.action_tidy deployment known
  exact htidy

end Tenancy
