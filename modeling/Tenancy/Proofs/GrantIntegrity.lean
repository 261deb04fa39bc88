import Tenancy.Proofs.PermissionRoundTrip
import Tenancy.Proofs.SerialRuns

/-!
# Tenancy - Grants agree with the other records

Grants are made from what separates the wanted permissions of a role from the granted
ones, they are removed by their ids, and all of a role's grants go when the role is
deleted.  Where operations do not overlap, every grant is one of a stored role, at a
scope at which the role may be granted permissions.  New grants have new ids and give
what is not yet given, so the store never refuses them.

Main definitions:

- `World.HasFoundedGrants`: every grant is one of a stored role, under an id that was
  drawn.
- `World.HasSoundGrants`: how the grants agree with the other records, and what follows.

Main results:

- Theorem `Tables.addGrants_eq_some`: grants with new ids that give something new are
  taken.
- Theorem `Roles.settle_founded`: settling never fails.
- Theorem `World.Visits.hasFoundedGrants`: one operation after the other keeps grants
  founded.
- Theorem `hasSoundGrants_of_visits`: grants are sound between operations that do not
  overlap.
-/

namespace Tenancy

/-! ## Adding grants -/

/-- Two grants that are the same give the same. -/
theorem Grant.given_eq_of_sameGrant {a b : Grant} (hsame : a.sameGrant b = true) :
    a.given = b.given := by
  simp only [Grant.sameGrant, Bool.and_eq_true, beq_iff_eq] at hsame
  simp [Grant.given, hsame]

/-- Grants with new ids that give something new are taken. -/
theorem Tables.addGrants_eq_some {grants added : List Grant}
    (hids : ((grants ++ added).map (·.id)).Nodup)
    (hgivens : ((grants ++ added).map Grant.given).Nodup) :
    addGrants grants added = some (grants ++ added) := by
  induction added generalizing grants with
  | nil => rw [List.append_nil, addGrants]
  | cons grant rest ih =>
      have hnew :
          ¬grants.any (fun other => other.id == grant.id || other.sameGrant grant) = true := by
        rw [List.any_eq_true]
        rintro ⟨other, hother, hclash⟩
        rw [List.map_append, List.nodup_append] at hids hgivens
        rcases Bool.or_eq_true_iff.1 hclash with hsame | hsame
        · exact hids.2.2 _ (List.mem_map_of_mem hother) _ List.mem_cons_self (eq_of_beq hsame)
        · exact hgivens.2.2 _ (List.mem_map_of_mem hother) _ List.mem_cons_self
            (Grant.given_eq_of_sameGrant hsame)
      rw [List.append_cons] at hids hgivens ⊢
      rw [addGrants, if_neg hnew, ih hids hgivens]

/-- Grants that can be added to those that remain are added. -/
theorem Tables.perform_changeGrants {tables : Tables} {added grants : List Grant}
    {removedIds : List String}
    (hadd : addGrants (tables.grants.filter (!removedIds.contains ·.id)) added = some grants) :
    tables.perform (.roles (.changeGrants added removedIds)) =
      (.ok (), { tables with grants := grants, grantWrites := tables.grantWrites + 1 }) := by
  simp only [perform, performRole, hadd]

/-! ## Founded grants -/

/-- Every grant has an id that was drawn and is one of a stored role. -/
structure World.HasFoundedGrants (world : World) : Prop where
  drawn : ∀ grant ∈ world.tables.grants, ∃ n < world.supply.idsDrawn,
    world.supply.ids n = grant.id
  held : ∀ grant ∈ world.tables.grants, grant.roleId ∈ world.tables.roles.map (·.id)

/-- A call that does not add grants leaves only grants that were there before, and with each of them
its role. -/
theorem Tables.grants_perform_held {tables : Tables} {call : Call}
    (hother : ∀ added removedIds, call ≠ .roles (.changeGrants added removedIds)) :
    ∀ grant ∈ (tables.perform call).2.grants, grant ∈ tables.grants ∧
      (grant.roleId ∈ tables.roles.map (·.id) →
        grant.roleId ∈ (tables.perform call).2.roles.map (·.id)) := by
  cases call with
  | roles call =>
      cases call with
      | create role =>
          simp only [perform, performRole]
          split
          · exact fun grant hgrant => ⟨hgrant, id⟩
          · split
            · exact fun grant hgrant => ⟨hgrant, id⟩
            · refine fun grant hgrant => ⟨hgrant, fun hheld => ?_⟩
              rw [List.map_append]
              exact List.mem_append_left _ hheld
      | update role =>
          simp only [perform, performRole]
          split
          · exact fun grant hgrant => ⟨hgrant, id⟩
          · split
            · rename_i hstored
              refine fun grant hgrant => ⟨hgrant, fun hheld => ?_⟩
              rw [map_key_put (by simpa using hstored)]
              exact hheld
            · exact fun grant hgrant => ⟨hgrant, id⟩
      | delete roleId =>
          intro grant hgrant
          obtain ⟨hold, hleft⟩ := List.mem_filter.1 hgrant
          refine ⟨hold, fun hheld => ?_⟩
          obtain ⟨role, hrole, hid⟩ := List.mem_map.1 hheld
          refine List.mem_map.2 ⟨role, List.mem_filter.2 ⟨hrole, ?_⟩, hid⟩
          rw [hid]
          exact hleft
      | changeGrants added removedIds => exact absurd rfl (hother added removedIds)
      | find | findMany | findByName | list | listAssignable | grantsOf =>
          exact fun grant hgrant => ⟨hgrant, id⟩
  | organizations call =>
      obtain ⟨_, hframe⟩ := tables.performOrganization_frame call
      rw [hframe]
      exact fun grant hgrant => ⟨hgrant, id⟩
  | memberships call =>
      obtain ⟨_, _, hframe⟩ := tables.performMembership_frame call
      rw [hframe]
      exact fun grant hgrant => ⟨hgrant, id⟩
  | invitations call =>
      obtain ⟨_, hframe⟩ := tables.performInvitation_frame call
      rw [hframe]
      exact fun grant hgrant => ⟨hgrant, id⟩
  | directory call | catalog call =>
      rw [tables.perform_of_not_write rfl]
      exact fun grant hgrant => ⟨hgrant, id⟩

/-- Requests that do not add grants. -/
def Effect.AddsNoGrants (effect : Effect) : Prop :=
  ∀ added removedIds, effect ≠ .store (.roles (.changeGrants added removedIds))

namespace World.HasFoundedGrants

variable {world : World}

/-- Without grants, all of them are founded. -/
theorem of_noRecords (hnone : world.tables.HasNoRecords) : world.HasFoundedGrants where
  drawn := by simp [hnone.grants]
  held := by simp [hnone.grants]

/-- A request that adds no grants keeps them founded. -/
theorem perform (founded : world.HasFoundedGrants) {effect : Effect} (hnone : effect.AddsNoGrants) :
    (World.perform effect world).2.HasFoundedGrants := by
  cases effect with
  | store call =>
      have hkept := @Tables.grants_perform_held world.tables call fun added removedIds hcall =>
        hnone added removedIds (congrArg Effect.store hcall)
      exact
        { drawn := fun grant hgrant => founded.drawn grant (hkept grant hgrant).1
          held := fun grant hgrant =>
            (hkept grant hgrant).2 (founded.held grant (hkept grant hgrant).1) }
  | freshId =>
      refine ⟨fun grant hgrant => ?_, founded.held⟩
      obtain ⟨n, hlt, hid⟩ := founded.drawn grant hgrant
      exact ⟨n, Nat.lt_succ_of_lt hlt, hid⟩
  | clock | randomBytes | note => exact ⟨founded.drawn, founded.held⟩

/-- Drawing ids keeps grants founded. -/
theorem draw {after : World} (founded : world.HasFoundedGrants)
    (htables : after.tables = world.tables) {count : Nat}
    (hsupply : after.supply = { world.supply with idsDrawn := world.supply.idsDrawn + count }) :
    after.HasFoundedGrants where
  drawn := by
    intro grant hgrant
    rw [htables] at hgrant
    obtain ⟨n, hlt, hid⟩ := founded.drawn grant hgrant
    rw [hsupply]
    exact ⟨n, Nat.lt_add_right _ hlt, hid⟩
  held := by
    rw [htables]
    exact founded.held

/-- Adding founded grants to those that remain keeps grants founded. -/
theorem changeGrants (founded : world.HasFoundedGrants) (keep : Grant → Bool) {added : List Grant}
    (hdrawn : ∀ grant ∈ added, ∃ n < world.supply.idsDrawn, world.supply.ids n = grant.id)
    (hheld : ∀ grant ∈ added, grant.roleId ∈ world.tables.roles.map (·.id)) (writes : Nat) :
    ({ world with tables := { world.tables with
      grants := world.tables.grants.filter keep ++ added
      grantWrites := writes } } : World).HasFoundedGrants where
  drawn := by
    intro grant hgrant
    rcases List.mem_append.1 hgrant with hkept | hnew
    · exact founded.drawn grant (List.mem_of_mem_filter hkept)
    · exact hdrawn grant hnew
  held := by
    intro grant hgrant
    rcases List.mem_append.1 hgrant with hkept | hnew
    · exact founded.held grant (List.mem_of_mem_filter hkept)
    · exact hheld grant hnew

/-- Operations that do not set permissions keep grants founded. -/
theorem operation (founded : world.HasFoundedGrants) (deployment : Deployment)
    {operation : Operation}
    (hother : ∀ roleId scope names, operation ≠ .setRolePermissions roleId scope names) :
    ((operation.action deployment).runIn world).2.HasFoundedGrants := by
  refine (operation.action_uses deployment).keeps (fun effect world hmay founded => ?_) founded
  refine founded.perform ?_
  rintro added removedIds rfl
  cases hmay rfl with
  | setRolePermissions roleId scope names => exact hother roleId scope names rfl

end World.HasFoundedGrants

/-! ## Settling -/

namespace Roles

variable {world : World} {role : Role} {scope tenantId : Option String}

/-- New grants are made under the ids that are drawn next. -/
theorem newGrants_ids (role : Role) (scope tenantId : Option String) (permissionIds : List String)
    (world : World) :
    ∃ added after, (newGrants role scope tenantId permissionIds).runIn world = (.ok added, after) ∧
      after.supply = { world.supply with
        idsDrawn := world.supply.idsDrawn + permissionIds.length } ∧
      added.map (·.id) =
        (List.range' world.supply.idsDrawn permissionIds.length).map world.supply.ids := by
  induction permissionIds generalizing world with
  | nil => exact ⟨[], world, rfl, rfl, rfl⟩
  | cons permissionId rest ih =>
      obtain ⟨others, after, hrun, hsupply, hids⟩ := ih world.drawId.2
      have hdrawn : Action.freshId.runIn world = (.ok world.drawId.1, world.drawId.2) := rfl
      refine ⟨_, after, (Action.runIn_bind_ok hdrawn _).trans (Action.runIn_bind_ok hrun _), ?_, ?_⟩
      · rw [hsupply]
        simp [World.drawId, Nat.add_assoc, Nat.add_comm 1]
      · rw [List.map_cons, hids]
        rfl

/-- What remains of sound grants can be extended by new grants for missing permissions, under ids
that were not yet drawn. -/
theorem addGrants_missing (sound : world.tables.IsSoundAt role.id scope tenantId)
    (distinct : world.tables.HasDistinctGrants) (founded : world.HasFoundedGrants)
    (unrepeating : Function.Injective world.supply.ids) {wanted : List String}
    (hwanted : wanted.Nodup) (keep : Grant → Bool) {added : List Grant} {count : Nat}
    (hids : added.map (·.id) =
      (List.range' world.supply.idsDrawn count).map world.supply.ids)
    (hpermissions : added.map (·.permissionId) =
      world.tables.missingAt role.id scope wanted)
    (hadded : ∀ grant ∈ added, grant.roleId = role.id ∧ grant.organizationId = scope ∧
      grant.tenantId = tenantId) :
    Tables.addGrants (world.tables.grants.filter keep) added =
      some (world.tables.grants.filter keep ++ added) := by
  refine Tables.addGrants_eq_some ?_ ?_
  · rw [List.map_append, hids, List.nodup_append]
    refine ⟨Tables.nodup_map_filter sound.ids keep,
      List.Nodup.map unrepeating List.nodup_range', ?_⟩
    rintro old hold new hnew rfl
    obtain ⟨grant, hgrant, hid⟩ := List.mem_map.1 hold
    obtain ⟨n, hlt, hdrawn⟩ := founded.drawn grant (List.mem_of_mem_filter hgrant)
    obtain ⟨m, hm, hnext⟩ := List.mem_map.1 hnew
    obtain ⟨i, -, rfl⟩ := List.mem_range'.1 hm
    have hsame := unrepeating (hdrawn.trans (hid.trans hnext.symm))
    omega
  · have hnew : (added.map Grant.given).Nodup := by
      have hdistinct : (added.map (·.permissionId)).Nodup := by
        rw [hpermissions]
        exact hwanted.filter _
      refine List.Nodup.of_map (fun given => given.2.1) ?_
      rw [List.map_map]
      exact hdistinct
    rw [List.map_append, List.nodup_append]
    refine ⟨Tables.nodup_map_filter distinct keep, hnew, ?_⟩
    rintro given hold _ hmem rfl
    obtain ⟨old, hgrant, rfl⟩ := List.mem_map.1 hold
    obtain ⟨grant, hgrantNew, hgiven⟩ := List.mem_map.1 hmem
    obtain ⟨hrole, hscope, -⟩ := hadded grant hgrantNew
    simp only [Grant.given, Prod.mk.injEq] at hgiven
    -- The old grant would give a permission at the scope that is missing there.
    have hassigned : grant.permissionId ∈ world.tables.assignedAt role.id scope := by
      rw [hgiven.2.1]
      refine List.mem_map_of_mem (Tables.mem_grantsAt.2 ⟨List.mem_of_mem_filter hgrant, ?_, ?_⟩)
      · rw [← hgiven.1, hrole]
      · rw [← hgiven.2.2.1, hscope]
    have hmissing : grant.permissionId ∈ world.tables.missingAt role.id scope wanted := by
      rw [← hpermissions]
      exact List.mem_map_of_mem hgrantNew
    simp [Tables.missingAt, hassigned] at hmissing

/-- Settling a stored role succeeds and keeps grants founded. -/
theorem settle_founded (hrole : role ∈ world.tables.roles)
    (sound : world.tables.IsSoundAt role.id scope tenantId)
    (distinct : world.tables.HasDistinctGrants) (founded : world.HasFoundedGrants)
    (unrepeating : Function.Injective world.supply.ids) {wanted : List String}
    (hwanted : wanted.Nodup) :
    (settle role scope tenantId wanted).Achieves world fun after _ => after.HasFoundedGrants := by
  obtain ⟨added, made, hmade, htables, hpermissions, hadded⟩ := newGrants_ends role scope tenantId
    (world.tables.missingAt role.id scope wanted) world
  obtain ⟨others, after, hrun, hsupply, hids⟩ := newGrants_ids role scope tenantId
    (world.tables.missingAt role.id scope wanted) world
  obtain ⟨⟨⟩, rfl⟩ := Prod.mk.inj (hmade.run.symm.trans hrun)
  have hfounded : made.HasFoundedGrants := founded.draw htables hsupply
  have hdrawn : ∀ grant ∈ added, ∃ n < made.supply.idsDrawn, made.supply.ids n = grant.id := by
    intro grant hgrant
    have hmem : grant.id ∈ added.map (·.id) := List.mem_map_of_mem hgrant
    rw [hids] at hmem
    obtain ⟨n, hn, hid⟩ := List.mem_map.1 hmem
    obtain ⟨i, hi, rfl⟩ := List.mem_range'.1 hn
    rw [hsupply]
    exact ⟨_, by simpa using hi, hid⟩
  have hheld : ∀ grant ∈ added, grant.roleId ∈ made.tables.roles.map (·.id) := by
    intro grant hgrant
    rw [htables, (hadded grant hgrant).1]
    exact List.mem_map_of_mem hrole
  have hadd := addGrants_missing sound distinct founded unrepeating hwanted
    (fun grant => !(surplusIds world.tables role.id scope wanted).contains grant.id) hids
    hpermissions hadded
  rw [← htables] at hadd
  have hchanged := hfounded.changeGrants
    (fun grant => !(surplusIds made.tables role.id scope wanted).contains grant.id) hdrawn hheld
    (made.tables.grantWrites + 1)
  have hdelta : (writeDelta role scope tenantId (world.tables.missingAt role.id scope wanted)
      (surplusIds world.tables role.id scope wanted)).Achieves world
        fun after _ => after.HasFoundedGrants := by
    refine .bind hrun ?_
    split
    · exact ⟨(), made, rfl, hfounded⟩
    · rw [← htables]
      refine .bind (Action.runIn_answered (Tables.perform_changeGrants hadd)) ?_
      exact ⟨(), _, rfl, hchanged.drawn, hchanged.held⟩
  obtain ⟨value, last, hlast, hfounded⟩ := hdelta
  exact ⟨value, last, (settle_ends sound ⟨hlast, rfl⟩).run, hfounded⟩

/-! ## Setting permissions -/

/-- An error that is not a conflict of the store. -/
def IsNoConflict (error : Error) : Prop :=
  ∀ reason, error ≠ .storage (.conflict reason)

/-- Resolving names fails only for an unknown name. -/
theorem resolveNames_error {known : List (String × String)} {names : List String} {error : Error}
    (herror : resolveNames known names = .error error) : IsNoConflict error := by
  induction names with
  | nil => cases herror
  | cons name rest ih =>
      unfold resolveNames at herror
      split at herror
      · cases herror
        nofun
      · cases hrest : resolveNames known rest with
        | ok ids =>
            rw [hrest] at herror
            cases herror
        | error other =>
            rw [hrest] at herror
            cases herror
            exact ih hrest

/-- Looking up the wanted permissions gives distinct ones, or fails for another reason than a
conflict. -/
theorem runIn_wantedIds_cases (world : World) (names : List String) :
    (∃ wanted, (wantedIds names).runIn world = (.ok wanted, world) ∧ wanted.Nodup) ∨
      ∃ error, (wantedIds names).runIn world = (.error error, world) ∧ IsNoConflict error := by
  unfold wantedIds
  split
  · exact .inl ⟨[], rfl, List.nodup_nil⟩
  · cases hopen : world.tables.catalogAvailable with
    | false =>
        refine .inr ⟨.storage (.unavailable "permission catalog offline"), ?_, nofun⟩
        have hperform : world.tables.perform (.catalog (.idsForNames names)) =
            (.error (.unavailable "permission catalog offline"), world.tables) := by
          simp [Tables.perform, Tables.performCatalog, hopen]
        have hasked : (Action.ask (.catalog (.idsForNames names))).runIn world =
            (.error (.storage (.unavailable "permission catalog offline")), world) := by
          rw [Action.runIn_ask, Action.callStore_of_not_write rfl, World.callStore, hperform]
          rfl
        rw [Action.runIn_bind, hasked]
    | true =>
        have hasked := runIn_idsForNames hopen names
        cases hresult : resolveNames (Tables.idsForNames world.tables.catalog names) names with
        | error error =>
            refine .inr ⟨error, ?_, resolveNames_error hresult⟩
            refine (Action.runIn_bind_ok hasked _).trans ?_
            rw [hresult]
            rfl
        | ok ids =>
            refine .inl ⟨Text.keepFirst id [] ids, ?_, ?_⟩
            · refine (Action.runIn_bind_ok hasked _).trans ?_
              rw [hresult]
              rfl
            · have hkeys : ((Text.keepFirst id [] ids).map id).Nodup := Text.nodup_map_keepFirst
              simpa using hkeys

/-- Setting permissions settles a stored role where it may be granted them, or fails for another
reason than a conflict and changes nothing. -/
theorem setPermissions_cases (world : World) (roleId : String) (scope : Option String)
    (names : List String) :
    (∃ role tenantId wanted, role ∈ world.tables.roles ∧
      world.tables.Grantable role scope tenantId ∧ wanted.Nodup ∧
      (setPermissions roleId scope names).runIn world =
        (settle role scope tenantId wanted).runIn world) ∨
      ∃ error, (setPermissions roleId scope names).runIn world = (.error error, world) ∧
        IsNoConflict error := by
  rw [setPermissions_eq]
  cases hfind : world.tables.roles.find? (·.id == roleId) with
  | none =>
      refine .inr ⟨.roleMissing roleId, ?_, nofun⟩
      rw [Action.runIn_bind, runIn_load_none hfind]
  | some role =>
      have hload := Action.runIn_bind_ok (runIn_load hfind) fun role => do
        let tenantId ← scopeTenant role roleId scope
        let wanted ← wantedIds (Permission.normalize names)
        settle role scope tenantId wanted
      by_cases hscope : ∃ tenantId, world.tables.Grantable role scope tenantId
      · obtain ⟨tenantId, grantable⟩ := hscope
        have hplaced := hload.trans
          (Action.runIn_bind_ok (runIn_scopeTenant grantable roleId) _)
        rcases runIn_wantedIds_cases world (Permission.normalize names) with
          ⟨wanted, hwanted, hnodup⟩ | ⟨error, herror, hkind⟩
        · have hrole : role ∈ world.tables.roles := List.mem_of_find?_eq_some hfind
          refine .inl ⟨role, tenantId, wanted, hrole, grantable, hnodup, ?_⟩
          exact hplaced.trans (Action.runIn_bind_ok hwanted _)
        · refine .inr ⟨error, hplaced.trans ?_, hkind⟩
          rw [Action.runIn_bind, herror]
      · obtain ⟨error, herror, hkind⟩ :=
          runIn_scopeTenant_error (fun tenantId h => hscope ⟨tenantId, h⟩) roleId
        refine .inr ⟨error, hload.trans ?_, fun reason => hkind (.conflict reason)⟩
        rw [Action.runIn_bind, herror]

/-- A deleted role leaves no grants behind. -/
theorem delete_purges {roleId : String} (hdeleted : ((delete roleId).runIn world).1 = .ok ()) :
    ∀ grant ∈ ((delete roleId).runIn world).2.tables.grants, grant.roleId ≠ roleId := by
  cases hfind : world.tables.roles.find? (·.id == roleId) with
  | none =>
      unfold delete at hdeleted
      rw [Action.runIn_bind, runIn_load_none hfind] at hdeleted
      cases hdeleted
  | some role =>
      unfold delete at hdeleted ⊢
      rw [Action.runIn_bind_ok (runIn_load hfind)] at hdeleted ⊢
      cases hsystem : role.isSystem with
      | true =>
          rw [hsystem] at hdeleted
          cases hdeleted
      | false =>
          have hkey : role.id = roleId := Tables.key_of_find hfind
          have hstored : world.tables.roles.any (·.id == roleId) = true :=
            List.any_eq_true.2 ⟨role, List.mem_of_find?_eq_some hfind, beq_iff_eq.2 hkey⟩
          rw [Action.runIn_bind_ok (Action.runIn_require (show (!false) = true from rfl) _),
            Action.runIn_bind_ok (Action.runIn_answered rfl),
            Action.runIn_bind_ok (Action.runIn_require hstored _)]
          intro grant hgrant
          simpa using (List.mem_filter.1 hgrant).2

end Roles

/-! ## Between operations that do not overlap -/

/-- How the grants of a world agree with the other records: they differ in their ids and in what they
give, and each is one of a stored role, at a scope at which the role may be granted permissions.  So
setting permissions is never refused by the store, and a deleted role leaves no grants behind. -/
structure World.HasSoundGrants (world : World) : Prop where
  ids : (world.tables.grants.map (·.id)).Nodup
  distinct : (world.tables.grants.map Grant.given).Nodup
  placed : ∀ grant ∈ world.tables.grants, ∃ role ∈ world.tables.roles, role.id = grant.roleId ∧
    world.tables.Grantable role grant.organizationId grant.tenantId
  accepted : ∀ roleId scope names reason,
    ((Roles.setPermissions roleId scope names).runIn world).1 ≠
      .error (.storage (.conflict reason))
  purged : ∀ roleId, ((Roles.delete roleId).runIn world).1 = .ok () →
    ∀ grant ∈ ((Roles.delete roleId).runIn world).2.tables.grants, grant.roleId ≠ roleId

/-- A grant that agrees with the ledger is at a scope at which its role may be granted
permissions. -/
theorem Ledger.Describes.grantable {ledger : Ledger} {world : World}
    (describes : ledger.Describes world) (keys : world.tables.HasDistinctKeys) {role : Role}
    (hrole : role ∈ world.tables.roles) {grant : Grant} (hgrant : grant ∈ world.tables.grants)
    (hid : role.id = grant.roleId) :
    world.tables.Grantable role grant.organizationId grant.tenantId := by
  obtain ⟨scope, hscope, hgrants⟩ := (describes.grants grant hgrant).granted
  rw [← hid, describes.scopes role hrole] at hscope
  obtain rfl := Option.some.inj hscope
  cases horganization : grant.organizationId with
  | none =>
      rw [horganization] at hgrants
      obtain ⟨htemplate, htenant⟩ := hgrants
      rw [← htenant]
      exact .everywhere (Option.isNone_iff_eq_none.2 htemplate)
  | some organizationId =>
      rw [horganization] at hgrants
      obtain ⟨htenant, hfits⟩ := hgrants
      obtain ⟨org, horg, rfl⟩ := describes.stored organizationId _ htenant
      rw [describes.tenants org horg] at htenant
      rw [← Option.some.inj htenant] at hfits ⊢
      exact .inOrganization (Tables.find_eq_some_of_mem keys.organizations horg) hfits

namespace World.Visits

variable {start world : World}

/-- In a visited world, setting permissions succeeds once it settles a stored role. -/
theorem settle_founded (starts : Regime.unrepeating.Starts start) (visits : start.Visits world)
    (founded : world.HasFoundedGrants) {role : Role} {scope tenantId : Option String}
    {wanted : List String} (hrole : role ∈ world.tables.roles)
    (grantable : world.tables.Grantable role scope tenantId) (hwanted : wanted.Nodup) :
    (Roles.settle role scope tenantId wanted).Achieves world
      fun after _ => after.HasFoundedGrants := by
  have unrepeating := visits.injective_ids starts
  obtain ⟨config, reaches, rfl⟩ := visits.reaches starts
  obtain ⟨ledger, describes⟩ := reaches.described starts Regime.unrepeating_distinctIds
  have distinct := reaches.hasDistinctGrants starts
  exact Roles.settle_founded hrole
    (describes.isSoundAt (reaches.hasDistinctKeys starts) distinct hrole grantable) distinct founded
    unrepeating hwanted

/-- Operations one after the other keep grants founded. -/
theorem hasFoundedGrants (starts : Regime.unrepeating.Starts start) (visits : start.Visits world) :
    world.HasFoundedGrants := by
  induction visits with
  | start => exact .of_noRecords starts.noRecords
  | @operation world visits deployment operation ih =>
      cases operation with
      | setRolePermissions roleId scope names =>
          rcases Roles.setPermissions_cases world roleId scope names with
            ⟨role, tenantId, wanted, hrole, grantable, hwanted, hsettles⟩ | ⟨error, herror, -⟩
          · obtain ⟨_, after, hrun, founded⟩ :=
              visits.settle_founded starts ih hrole grantable hwanted
            change ((Roles.setPermissions roleId scope names).runIn world).2.HasFoundedGrants
            rw [hsettles, hrun]
            exact founded
          · change ((Roles.setPermissions roleId scope names).runIn world).2.HasFoundedGrants
            rw [herror]
            exact ih
      | _ => exact ih.operation deployment nofun
  | shift _ outside ih => exact ⟨ih.drawn, ih.held⟩

end World.Visits

/-- Between operations that do not overlap, where ids never repeat, the grants agree with the other
records. -/
theorem hasSoundGrants_of_visits {start world : World} (starts : Regime.unrepeating.Starts start)
    (visits : start.Visits world) : world.HasSoundGrants := by
  have founded := visits.hasFoundedGrants starts
  constructor
  case accepted =>
    intro roleId scope names reason hconflict
    rcases Roles.setPermissions_cases world roleId scope names with
      ⟨role, tenantId, wanted, hrole, grantable, hwanted, hsettles⟩ | ⟨error, herror, hkind⟩
    · obtain ⟨_, after, hrun, -⟩ := visits.settle_founded starts founded hrole grantable hwanted
      rw [hsettles, hrun] at hconflict
      cases hconflict
    · rw [herror] at hconflict
      exact hkind reason (Except.error.inj hconflict)
  case purged => exact fun roleId => Roles.delete_purges
  all_goals
    obtain ⟨config, reaches, rfl⟩ := visits.reaches starts
    have keys := reaches.hasDistinctKeys starts
  case ids => exact keys.grants
  case distinct => exact reaches.hasDistinctGrants starts
  case placed =>
    intro grant hgrant
    obtain ⟨ledger, describes⟩ := reaches.described starts Regime.unrepeating_distinctIds
    obtain ⟨role, hrole, hid⟩ := List.mem_map.1 (founded.held grant hgrant)
    exact ⟨role, hrole, hid, describes.grantable keys hrole hgrant hid⟩

/-- A template is granted permissions everywhere and in an organization, some of them are replaced,
and a role with grants is deleted. -/
theorem hasSoundGrants_of_visits_deleted_role :
    ∃ world, (World.blank [("p", "docs.read"), ("q", "docs.write")]).Visits world ∧
      world.tables.grants.map (fun grant => (grant.roleId, grant.permissionId,
        grant.organizationId)) = [("aa", "p", none), ("aa", "q", some "a")] ∧
      world.HasSoundGrants := by
  have starts : Regime.unrepeating.Starts
      (World.blank [("p", "docs.read"), ("q", "docs.write")]) :=
    (Regime.orderly_starts_blank (by decide +kernel)).unrepeating
  have visits := (@World.Visits.start
      (World.blank [("p", "docs.read"), ("q", "docs.write")])).runAll default
    [.createOrganization
      { slug := "north", displayName := "North", tenantId := some "t", metadata := .empty },
     .createRole
      { name := "reader", description := none, isSystem := false, organizationId := none
        tenantId := some "t" },
     .createRole
      { name := "writer", description := none, isSystem := false, organizationId := some "a"
        tenantId := none },
     .setRolePermissions "aa" none ["docs.read"],
     .setRolePermissions "aa" (some "a") ["docs.read"],
     .setRolePermissions "aaa" (some "a") ["docs.read"],
     .setRolePermissions "aa" (some "a") ["docs.write"],
     .deleteRole "aaa"]
  exact ⟨_, visits, by decide +kernel, hasSoundGrants_of_visits starts visits⟩

end Tenancy
